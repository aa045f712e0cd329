import Mathlib.Logic.Function.Basic
import SerialBus.MemoryBlock
import SerialBus.Proofs.Fields
import SerialBus.Proofs.Run.Simulated
import SerialBus.Proofs.Simulator.Switches

namespace SerialBus

inductive Update
  | put (f : Field) (v : Nat)
  | switch (bits : Word) (on : Bool)
  deriving DecidableEq, Repr

namespace Update

def apply (w : Word) : Update → Word
  | put f v => f.put v w
  | switch bits on => if on then w ||| bits else w &&& ~~~bits

def bits : Update → Word
  | put f _ => f.mask
  | switch bits _ => bits

def valueIn? (f : Field) : Update → Option Nat
  | put g v => if g = f then some v else none
  | switch .. => none

theorem getLsbD_apply (u : Update) (w : Word) (i : Nat) :
    (u.apply w).getLsbD i = if u.bits.getLsbD i then (u.apply 0).getLsbD i else w.getLsbD i := by
  cases u with
  | put f v =>
    simp only [apply, bits, Field.put, Field.mask, BitVec.getLsbD_or, BitVec.getLsbD_and,
      BitVec.getLsbD_not, BitVec.getLsbD_shiftLeft, BitVec.getLsbD_setWidth, BitVec.getLsbD_ofNat,
      BitVec.getLsbD_allOnes]
    by_cases inside : i < 32
    · have shifted : i - f.offset < 32 := by omega
      by_cases low : i < f.offset <;> by_cases high : i - f.offset < f.width <;> simp [*]
    · simp [inside, BitVec.getLsbD_of_ge w i (by omega)]
  | switch among on =>
    by_cases inside : i < 32
    · cases bit : among.getLsbD i <;> cases on <;>
        simp [apply, bits, bit, inside, -BitVec.getLsbD_eq_getElem]
    · simp [BitVec.getLsbD_of_ge _ i (Nat.not_lt.mp inside)]

theorem apply_comm {u v : Update} (apart : u.bits &&& v.bits = 0) (w : Word) :
    u.apply (v.apply w) = v.apply (u.apply w) := by
  apply BitVec.eq_of_getLsbD_eq
  intro i _
  have bit : (u.bits.getLsbD i && v.bits.getLsbD i) = false := by
    rw [← BitVec.getLsbD_and, apart]
    exact BitVec.getLsbD_zero
  rw [getLsbD_apply u, getLsbD_apply v w, getLsbD_apply v (u.apply w), getLsbD_apply u w]
  rcases Bool.and_eq_false_iff.mp bit with bit | bit <;>
    simp only [bit, Bool.false_eq_true, if_false]

theorem getLsbD_foldl (us : List Update) (i : Nat)
    (spared : ∀ u ∈ us, u.bits.getLsbD i = false) (w : Word) :
    (us.foldl apply w).getLsbD i = w.getLsbD i := by
  induction us generalizing w with
  | nil => rfl
  | cons u rest ih =>
    rw [List.forall_mem_cons] at spared
    rw [List.foldl_cons, ih spared.2, getLsbD_apply, spared.1]
    rfl

/-- The change is a value for the field `f` that it can hold, or for a field apart from it. -/
inductive Minds (f : Field) : Update → Prop
  | own (v : Nat) (small : v < 2 ^ f.width) : Minds f (put f v)
  | other (g : Field) (v : Nat) (fits : g.Fits) (apart : f.Disjoint g) (differ : g ≠ f) :
    Minds f (put g v)

theorem get_apply {f : Field} (fits : f.Fits) {u : Update} (minds : u.Minds f) (w : Word) :
    f.get (u.apply w) = (u.valueIn? f).getD (f.get w) := by
  cases minds with
  | own v small =>
    rw [valueIn?, if_pos rfl]
    exact f.get_put_of_lt fits v small w
  | other g v gFits apart differ =>
    rw [valueIn?, if_neg differ]
    exact f.get_put_of_disjoint g gFits apart v w

theorem get_foldl {f : Field} (fits : f.Fits) (us : List Update) (mind : ∀ u ∈ us, u.Minds f)
    (w : Word) :
    f.get (us.foldl apply w) = (us.filterMap (valueIn? f)).getLastD (f.get w) := by
  induction us generalizing w with
  | nil => rfl
  | cons u rest ih =>
    rw [List.forall_mem_cons] at mind
    rw [List.foldl_cons, ih mind.2, get_apply fits mind.1, List.filterMap_cons]
    cases u.valueIn? f with
    | none => rfl
    | some v => rw [List.getLastD_cons, Option.getD_some]

end Update

/-- The registers that are changed in part. -/
inductive Switch
  | control
  | intrEnable
  | errorEnable
  | eventEnable
  deriving DecidableEq, Repr

namespace Switch

def register : Switch → Register
  | control => .control
  | intrEnable => .intrEnable
  | errorEnable => .errorEnable
  | eventEnable => .eventEnable

theorem offset_lt (s : Switch) : s.register.offset / 4 < MemoryBlock.size := by
  cases s <;> decide

theorem offset_ne (s : Switch) {r : Register} (other : ∀ s : Switch, s.register ≠ r)
    (mapped : ∀ line, r = .configOpts line → line < Register.optionLines) :
    r.offset / 4 ≠ s.register.offset / 4 := by
  cases r with
  | control => exact absurd rfl (other .control)
  | intrEnable => exact absurd rfl (other .intrEnable)
  | errorEnable => exact absurd rfl (other .errorEnable)
  | eventEnable => exact absurd rfl (other .eventEnable)
  | configOpts line =>
    have inside := mapped line rfl
    unfold Register.optionLines at inside
    cases s <;> simp only [register, Register.offset] <;> omega
  | _ => cases s <;> decide

def change (ws : Switch → Word) (c : Switch × Update) : Switch → Word :=
  Function.update ws c.1 (c.2.apply (ws c.1))

def updateOf? (s : Switch) (c : Switch × Update) : Option Update :=
  if c.1 = s then some c.2 else none

theorem change_put_put (s : Switch) (f : Field) (fits : f.Fits) (u v : Nat) (ws : Switch → Word) :
    change (change ws (s, .put f u)) (s, .put f v) = change ws (s, .put f v) := by
  simp only [change, Function.update_self, Function.update_idem, Update.apply, f.put_put fits]

theorem change_comm {c d : Switch × Update} (apart : c.1 = d.1 → c.2.bits &&& d.2.bits = 0)
    (ws : Switch → Word) : change (change ws c) d = change (change ws d) c := by
  obtain ⟨s, u⟩ := c
  obtain ⟨t, v⟩ := d
  by_cases same : s = t
  · subst same
    simp only [change, Function.update_self, Function.update_idem]
    rw [Update.apply_comm (apart rfl)]
  · simp only [change, Function.update_of_ne same, Function.update_of_ne (Ne.symm same)]
    exact Function.update_comm same _ _ _

/-- Each register has its own changes, and no others. -/
theorem foldl_change (cs : List (Switch × Update)) (ws : Switch → Word) (s : Switch) :
    cs.foldl change ws s = (cs.filterMap s.updateOf?).foldl Update.apply (ws s) := by
  induction cs generalizing ws with
  | nil => rfl
  | cons c rest ih =>
    rw [List.foldl_cons, ih, List.filterMap_cons]
    by_cases own : c.1 = s
    · subst own
      simp only [updateOf?, if_true, List.foldl_cons, change, Function.update_self]
    · simp only [updateOf?, own, if_false, change, Function.update_of_ne (Ne.symm own)]

end Switch

theorem getD_set_of_lt (ws : List Word) (i : Nat) {j : Nat} (w : Word) (inside : j < ws.length) :
    (ws.set i w).getD j 0 = if i = j then w else ws.getD j 0 := by
  simp only [List.getD_eq_getElem?_getD, List.getElem?_set]
  by_cases same : i = j
  · simp [same, inside]
  · simp [same]

def RegisterBlock.shown {β : Type} [RegisterBlock β] (b : β) (s : Switch) : Word :=
  (RegisterBlock.read s.register b).1

open RegisterBlock (shown)

/-- The sound blocks hold in these registers what was last written to them. No other access changes
    it, and no move of the surroundings. -/
structure Storing {β μ : Type} [RegisterBlock β] (env : μ → β → β) (sound : β → Prop) : Prop where
  read : ∀ (r : Register) (b : β), sound b →
    sound (RegisterBlock.read r b).2 ∧ shown (RegisterBlock.read r b).2 = shown b
  store : ∀ (s : Switch) (w : Word) (b : β), sound b →
    sound (RegisterBlock.write s.register w b) ∧
      shown (RegisterBlock.write s.register w b) = Function.update (shown b) s w
  write : ∀ (r : Register) (w : Word) (b : β), (∀ s : Switch, s.register ≠ r) → sound b →
    sound (RegisterBlock.write r w b) ∧ shown (RegisterBlock.write r w b) = shown b
  push : ∀ (x : Byte) (b : β), sound b →
    sound (RegisterBlock.writeByte .txData x b) ∧
      shown (RegisterBlock.writeByte .txData x b) = shown b
  move : ∀ (m : μ) (b : β), sound b → sound (env m b) ∧ shown (env m b) = shown b

namespace Simulator

theorem shown_of_switches {s t : Simulator} (same : t.switches = s.switches) :
    shown t = shown s := by
  simp only [switches, Switches.mk.injEq] at same
  obtain ⟨control, -, intrEnable, errorEnable, eventEnable⟩ := same
  funext r
  cases r with
  | control => exact control
  | intrEnable => exact intrEnable
  | errorEnable => exact errorEnable
  | eventEnable => exact eventEnable

theorem shown_store (s : Simulator) (r : Switch) (w : Word) :
    shown (writeRegister r.register w s) = Function.update (shown s) r w := by
  funext t
  cases r with
  | control =>
    have written := shown_of_switches (s := { s with control := w }) (s.switches_writeControl w).2
    rw [Switch.register, written]
    cases t <;> rfl
  | _ => cases t <;> rfl

theorem switches_writeData (s : Simulator) (w : Word) :
    (writeRegister .txData w s).switches = s.switches := by
  simp only [writeRegister, applyWrite, pushData]
  split <;> rfl

theorem storing : Storing apply fun _ => True where
  read r s _ := by
    refine ⟨trivial, ?_⟩
    cases r with
    | rxData =>
      apply shown_of_switches
      simp only [RegisterBlock.read, readRegister, popData]
      split <;> rfl
    | _ => rfl
  store r w s _ := ⟨trivial, s.shown_store r w⟩
  write r w s other _ := by
    refine ⟨trivial, ?_⟩
    cases r with
    | control => exact absurd rfl (other .control)
    | intrEnable => exact absurd rfl (other .intrEnable)
    | errorEnable => exact absurd rfl (other .errorEnable)
    | eventEnable => exact absurd rfl (other .eventEnable)
    | command => exact shown_of_switches (switches_pushCommand _ w).2
    | txData => exact shown_of_switches (s.switches_writeData w)
    | alertTest =>
      apply shown_of_switches
      simp only [RegisterBlock.write, writeRegister, applyWrite]
      split <;> rfl
    | _ => funext t; cases t <;> rfl
  push x s _ := ⟨trivial, shown_of_switches (s.switches_writeData (x.setWidth 32))⟩
  move m s _ := by
    refine ⟨trivial, shown_of_switches ?_⟩
    cases m with
    | tick => exact switches_of_registers s.registers_step
    | _ => rfl

end Simulator

namespace MemoryBlock

theorem writeRegister_cases (r : Register) (w : Word) (m : MemoryBlock) :
    writeRegister r w m = m ∨ writeRegister r w m = m.store r w ∧
      ∀ line, r = .configOpts line → line < Register.optionLines := by
  cases r with
  | status | rxData => exact .inl rfl
  | configOpts line =>
    simp only [writeRegister]
    split
    · rename_i inside
      refine .inr ⟨rfl, fun other same => ?_⟩
      cases same
      exact inside
    · exact .inl rfl
  | _ => exact .inr ⟨rfl, by simp⟩

theorem load_store {m : MemoryBlock} (whole : m.words.length = size) (r t : Register) (w : Word)
    (mapped : t.offset / 4 < size) :
    (m.store r w).load t = if r.offset / 4 = t.offset / 4 then w else m.load t := by
  rw [← whole] at mapped
  exact getD_set_of_lt m.words (r.offset / 4) w mapped

theorem shown_eq (m : MemoryBlock) (s : Switch) : shown m s = m.load s.register := by
  cases s <;> rfl

theorem shown_store_other {m : MemoryBlock} (whole : m.words.length = size) {r : Register}
    (w : Word) (other : ∀ s : Switch, s.register ≠ r)
    (mapped : ∀ line, r = .configOpts line → line < Register.optionLines) :
    shown (m.store r w) = shown m := by
  funext s
  rw [shown_eq, shown_eq, load_store whole r s.register w s.offset_lt,
    if_neg (s.offset_ne other mapped)]

theorem storing :
    Storing (fun (_ : Empty) m => m) fun m : MemoryBlock => m.words.length = size where
  read _ _ whole := ⟨whole, rfl⟩
  store s w m whole := by
    have stored : RegisterBlock.write s.register w m = m.store s.register w := by
      cases s <;> rfl
    rw [stored]
    refine ⟨(List.length_set ..).trans whole, ?_⟩
    funext t
    rw [shown_eq, load_store whole s.register t.register w t.offset_lt]
    cases s <;> cases t <;> rfl
  write r w m other whole := by
    change (writeRegister r w m).words.length = size ∧ shown (writeRegister r w m) = shown m
    rcases m.writeRegister_cases r w with dropped | ⟨stored, mapped⟩
    · rw [dropped]
      exact ⟨whole, rfl⟩
    · rw [stored]
      exact ⟨(List.length_set ..).trans whole, shown_store_other whole w other mapped⟩
  push x m whole := ⟨(List.length_set ..).trans whole,
    shown_store_other whole _ (fun s => by cases s <;> decide) (by simp)⟩
  move _ _ whole := ⟨whole, rfl⟩

end MemoryBlock

end SerialBus
