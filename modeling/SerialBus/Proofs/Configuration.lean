import SerialBus.Proofs.Host.Operations
import SerialBus.Proofs.Host.Storing

namespace SerialBus

/-- The registers that a block is configured with. -/
inductive Setting
  | switch (s : Switch)
  | csid
  | options (line : Fin Register.optionLines)
  deriving DecidableEq, Repr

namespace Setting

def register : Setting → Register
  | switch s => s.register
  | csid => .csid
  | options line => .configOpts line

theorem offset_lt (q : Setting) : q.register.offset / 4 < MemoryBlock.size := by
  cases q with
  | switch s => exact s.offset_lt
  | csid => decide
  | options line =>
    have inside := line.isLt
    simp only [register, Register.offset, Register.optionLines, MemoryBlock.size] at inside ⊢
    omega

def at? : Nat → Option Setting
  | 1 => some (.switch .intrEnable)
  | 4 => some (.switch .control)
  | 6 => some (.options ⟨0, by decide⟩)
  | 7 => some (.options ⟨1, by decide⟩)
  | 8 => some .csid
  | 12 => some (.switch .errorEnable)
  | 14 => some (.switch .eventEnable)
  | _ => none

theorem at?_offset (q : Setting) : at? (q.register.offset / 4) = some q := by
  cases q with
  | switch s => cases s <;> rfl
  | csid => rfl
  | options line =>
    revert line
    decide

theorem offset_inj {q r : Setting} (same : q.register.offset / 4 = r.register.offset / 4) :
    q = r := by
  have there := q.at?_offset
  rw [same, at?_offset] at there
  exact (Option.some.inj there).symm

end Setting

def RegisterBlock.held {β : Type} [RegisterBlock β] (b : β) (q : Setting) : Word :=
  (RegisterBlock.read q.register b).1

open RegisterBlock (held)

/-- The sound blocks hold what was written to these registers, each in its own, and reading one of
    them has no effect. -/
structure Keeping {β : Type} [RegisterBlock β] (sound : β → Prop) : Prop where
  read : ∀ (q : Setting) (b : β), sound b → (RegisterBlock.read q.register b).2 = b
  write : ∀ (q : Setting) (w : Word) (b : β), sound b →
    sound (RegisterBlock.write q.register w b) ∧
      held (RegisterBlock.write q.register w b) = Function.update (held b) q w

namespace Simulator

def Lined (s : Simulator) : Prop := Register.optionLines ≤ s.options.length

theorem selection_writeSwitch (s : Simulator) (r : Switch) (w : Word) :
    (writeRegister r.register w s).csid = s.csid ∧
      (writeRegister r.register w s).options = s.options := by
  cases r with
  | control =>
    -- a reset that the word asks for drops queues and commands, not what was chosen
    simp only [Switch.register, writeRegister, applyWrite]
    split <;> exact ⟨rfl, rfl⟩
  | _ => exact ⟨rfl, rfl⟩

theorem lined_write (s : Simulator) (q : Setting) (w : Word) (lined : s.Lined) :
    (writeRegister q.register w s).Lined := by
  cases q with
  | switch r =>
    rw [Lined, Setting.register, (s.selection_writeSwitch r w).2]
    exact lined
  | csid => exact lined
  | options line => exact Nat.le_trans lined (Nat.le_of_eq List.length_set.symm)

theorem held_write (s : Simulator) (q : Setting) (w : Word) (lined : s.Lined) :
    held (writeRegister q.register w s) = Function.update (held s) q w := by
  funext t
  cases q with
  | switch r =>
    obtain ⟨csid, options⟩ := s.selection_writeSwitch r w
    cases t with
    | switch t =>
      have shown := congrFun (s.shown_store r w) t
      simp only [Function.update_apply, Setting.switch.injEq] at shown ⊢
      exact shown
    | csid => exact csid
    | options other => exact congrArg (List.getD · other 0) options
  | csid =>
    cases t with
    | switch t => cases t <;> rfl
    | csid => rfl
    | options other => rfl
  | options line =>
    cases t with
    | switch t => cases t <;> rfl
    | csid => rfl
    | options other =>
      have stored := getD_set_of_lt s.options line w (Nat.lt_of_lt_of_le other.isLt lined)
      simp only [Function.update_apply, Setting.options.injEq, Fin.ext_iff, eq_comm] at stored ⊢
      exact stored

theorem keeping : Keeping Lined where
  read q s _ := by
    cases q with
    | switch r => cases r <;> rfl
    | csid => rfl
    | options line => rfl
  write q w s lined := ⟨s.lined_write q w lined, s.held_write q w lined⟩

end Simulator

namespace MemoryBlock

/-- Memory that is as `base` was, apart from the words of these registers. -/
structure Spared (base m : MemoryBlock) : Prop where
  whole : m.words.length = size
  rest : ∀ i, Setting.at? i = none → m.words[i]? = base.words[i]?

theorem held_eq (m : MemoryBlock) (q : Setting) : held m q = m.load q.register := by
  cases q with
  | switch s => exact m.shown_eq s
  | csid => rfl
  | options line => exact if_pos line.isLt

theorem write_setting (m : MemoryBlock) (q : Setting) (w : Word) :
    RegisterBlock.write q.register w m = m.store q.register w := by
  cases q with
  | switch s => cases s <;> rfl
  | csid => rfl
  | options line => exact if_pos line.isLt

theorem Spared.store {base m : MemoryBlock} (spared : base.Spared m) (q : Setting) (w : Word) :
    base.Spared (m.store q.register w) := by
  constructor
  case whole => exact (List.length_set ..).trans spared.whole
  case rest =>
    intro i free
    have apart : q.register.offset / 4 ≠ i := by
      rintro rfl
      rw [q.at?_offset] at free
      cases free
    rw [MemoryBlock.store, List.getElem?_set_ne apart]
    exact spared.rest i free

theorem held_store {m : MemoryBlock} (whole : m.words.length = size) (q : Setting) (w : Word) :
    held (m.store q.register w) = Function.update (held m) q w := by
  funext t
  rw [held_eq, load_store whole q.register t.register w t.offset_lt]
  by_cases same : t = q
  · subst same
    rw [if_pos rfl, Function.update_self]
  · have other : q.register.offset / 4 ≠ t.register.offset / 4 :=
      fun eq => same (Setting.offset_inj eq).symm
    rw [if_neg other, Function.update_of_ne same, held_eq]

theorem keeping (base : MemoryBlock) : Keeping base.Spared where
  read _ _ _ := rfl
  write q w m spared := by
    rw [write_setting]
    exact ⟨spared.store q w, held_store spared.whole q w⟩

end MemoryBlock

namespace Host

/-- What is asked of the driver to set its block up, and to look at how it is set up. -/
inductive Setup
  | setEventsEnabled (events : Events) (on : Bool)
  | disableEvents
  | setFaultsEnabled (faults : Faults) (on : Bool)
  | setEventIntr (on : Bool)
  | setErrorIntr (on : Bool)
  | setEnable (on : Bool)
  | setOutputEnable (on : Bool)
  | setTxWatermark (level : UInt8)
  | setRxWatermark (level : UInt8)
  | softReset
  | setCsid (line : Word)
  | setChipOptions (line : Word) (o : ChipOptions)
  | eventsEnabled
  | faultsEnabled
  | eventIntrEnabled
  | errorIntrEnabled
  | csid
  | chipOptions (line : Word)
  deriving DecidableEq, Repr

inductive Reply
  | done
  | answer (a : Except HostError Unit)
  | events (e : Events)
  | faults (f : Faults)
  | flag (on : Bool)
  | line (csid : Word)
  | options (a : Except HostError ChipOptions)
  deriving DecidableEq, Repr

variable {β γ : Type} [RegisterBlock β] [RegisterBlock γ]

def Setup.perform (h : Host β) : Setup → Reply × Host β
  | setEventsEnabled events on => (h.setEventsEnabled events on).map .answer id
  | disableEvents => (.done, h.disableEvents)
  | setFaultsEnabled faults on => (h.setFaultsEnabled faults on).map .answer id
  | setEventIntr on => (.done, h.setEventIntr on)
  | setErrorIntr on => (.done, h.setErrorIntr on)
  | setEnable on => (.done, h.setEnable on)
  | setOutputEnable on => (.done, h.setOutputEnable on)
  | setTxWatermark level => (h.setTxWatermark level).map .answer id
  | setRxWatermark level => (h.setRxWatermark level).map .answer id
  | softReset => (.done, h.softReset)
  | setCsid line => (h.setCsid line).map .answer id
  | setChipOptions line o => (h.setChipOptions line o).map .answer id
  | eventsEnabled => h.eventsEnabled.map .events id
  | faultsEnabled => h.faultsEnabled.map .faults id
  | eventIntrEnabled => h.eventIntrEnabled.map .flag id
  | errorIntrEnabled => h.errorIntrEnabled.map .flag id
  | csid => h.csid.map .line id
  | chipOptions line => (h.chipOptions line).map .options id

def setUp (h : Host β) : List Setup → List Reply × Host β
  | [] => ([], h)
  | q :: rest =>
    let (r, h) := q.perform h
    let (rs, h) := h.setUp rest
    (r :: rs, h)

variable {sound : β → Prop} {stable : γ → Prop} {h : Host β} {g : Host γ}

/-- Two drivers under the same limits, whose blocks are configured alike. -/
structure Alike (sound : β → Prop) (stable : γ → Prop) (h : Host β) (g : Host γ) : Prop where
  left : sound h.block
  right : stable g.block
  limits : h.limits = g.limits
  settings : held h.block = held g.block

/-- Two drivers that said the same and are alike. -/
structure Agree {α : Type} (sound : β → Prop) (stable : γ → Prop) (x : α × Host β)
    (y : α × Host γ) : Prop where
  reply : x.1 = y.1
  next : Alike sound stable x.2 y.2

theorem Agree.map {α δ : Type} (f : α → δ) {x : α × Host β} {y : α × Host γ}
    (agree : Agree sound stable x y) : Agree sound stable (x.map f id) (y.map f id) :=
  ⟨congrArg f agree.reply, agree.next⟩

namespace Alike

section

variable (alike : Alike sound stable h g)
include alike

theorem lines_le (line : Word) : (h.lines ≤ line.toNat) = (g.lines ≤ line.toNat) := by
  rw [Host.lines, Host.lines, alike.limits]

theorem guarded {α : Type} {p q : Prop} [Decidable p] [Decidable q] (same : p = q)
    (err : HostError) {x : Except HostError α × Host β} {y : Except HostError α × Host γ}
    (agree : ¬ q → Agree sound stable x y) :
    Agree sound stable (if p then (.error err, h) else x) (if q then (.error err, g) else y) := by
  subst same
  by_cases refused : p
  · rw [if_pos refused, if_pos refused]
    exact ⟨rfl, alike⟩
  · rw [if_neg refused, if_neg refused]
    exact agree refused

theorem granted {p : Prop} [Decidable p] (err : HostError) {x : Host β} {y : Host γ}
    (next : Alike sound stable x y) :
    Agree sound stable (if p then (Except.ok (), x) else (.error err, h))
      (if p then (Except.ok (), y) else (.error err, g)) := by
  by_cases allowed : p
  · rw [if_pos allowed, if_pos allowed]
    exact ⟨rfl, next⟩
  · rw [if_neg allowed, if_neg allowed]
    exact ⟨rfl, alike⟩

end

variable (keeping : Keeping sound) (kept : Keeping stable) (alike : Alike sound stable h g)
include keeping kept alike

theorem read (q : Setting) : Agree sound stable (h.read q.register) (g.read q.register) := by
  have here : (h.read q.register).2 = h :=
    congrArg (Host.mk · h.limits) (keeping.read q h.block alike.left)
  have there : (g.read q.register).2 = g :=
    congrArg (Host.mk · g.limits) (kept.read q g.block alike.right)
  constructor
  case reply => exact congrFun alike.settings q
  case next =>
    rw [here, there]
    exact alike

theorem write (q : Setting) (w : Word) :
    Alike sound stable (h.write q.register w) (g.write q.register w) := by
  obtain ⟨left, here⟩ := keeping.write q w h.block alike.left
  obtain ⟨right, there⟩ := kept.write q w g.block alike.right
  constructor
  case left => exact left
  case right => exact right
  case limits => exact alike.limits
  case settings => rw [Host.write, Host.write, here, there, alike.settings]

theorem modify (q : Setting) (f : Word → Word) :
    Alike sound stable (h.modify q.register f) (g.modify q.register f) := by
  obtain ⟨same, next⟩ := alike.read keeping kept q
  simp only [Host.modify, same]
  exact next.write keeping kept q _

theorem perform (q : Setup) : Agree sound stable (q.perform h) (q.perform g) := by
  cases q with
  | setEventsEnabled events on =>
    have agree : Agree sound stable (h.setEventsEnabled events on) (g.setEventsEnabled events on) :=
      alike.granted .eventInvalid (alike.modify keeping kept (.switch .eventEnable)
        fun w => (Update.switch events.bits on).apply w)
    exact agree.map Reply.answer
  | setFaultsEnabled faults on =>
    have agree : Agree sound stable (h.setFaultsEnabled faults on) (g.setFaultsEnabled faults on) :=
      alike.granted .errorInvalid (alike.modify keeping kept (.switch .errorEnable)
        fun w => (Update.switch faults.bits on).apply w)
    exact agree.map Reply.answer
  | setTxWatermark level =>
    have agree : Agree sound stable (h.setTxWatermark level) (g.setTxWatermark level) :=
      alike.guarded (by rw [alike.limits]) .watermarkExceeds fun _ =>
        ⟨rfl, alike.modify keeping kept (.switch .control) _⟩
    exact agree.map Reply.answer
  | setRxWatermark level =>
    have agree : Agree sound stable (h.setRxWatermark level) (g.setRxWatermark level) :=
      alike.guarded (by rw [alike.limits]) .watermarkExceeds fun _ =>
        ⟨rfl, alike.modify keeping kept (.switch .control) _⟩
    exact agree.map Reply.answer
  | setCsid line =>
    have agree : Agree sound stable (h.setCsid line) (g.setCsid line) :=
      alike.guarded (alike.lines_le line) .csidInvalid fun _ =>
        ⟨rfl, alike.write keeping kept .csid _⟩
    exact agree.map Reply.answer
  | setChipOptions line o =>
    have agree : Agree sound stable (h.setChipOptions line o) (g.setChipOptions line o) :=
      alike.guarded (alike.lines_le line) .csidInvalid fun inside =>
        ⟨rfl, alike.write keeping kept (.options ⟨line.toNat, g.mapped_of_lines inside⟩) _⟩
    exact agree.map Reply.answer
  | chipOptions line =>
    have agree : Agree sound stable (h.chipOptions line) (g.chipOptions line) :=
      alike.guarded (alike.lines_le line) .csidInvalid fun inside =>
        (alike.read keeping kept (.options ⟨line.toNat, g.mapped_of_lines inside⟩)).map
          fun w => Except.ok (ChipOptions.ofWord w)
    exact agree.map Reply.options
  | disableEvents => exact ⟨rfl, alike.write keeping kept (.switch .eventEnable) _⟩
  | setEventIntr on | setErrorIntr on =>
    exact ⟨rfl, alike.modify keeping kept (.switch .intrEnable) _⟩
  | setEnable on | setOutputEnable on =>
    exact ⟨rfl, alike.modify keeping kept (.switch .control) _⟩
  | softReset =>
    have raised := alike.modify keeping kept (.switch .control) (Control.reset.put 1)
    exact ⟨rfl, raised.modify keeping kept (.switch .control) _⟩
  | eventsEnabled =>
    have word := alike.read keeping kept (.switch .eventEnable)
    exact word.map fun w => Reply.events (.truncate w)
  | faultsEnabled =>
    have word := alike.read keeping kept (.switch .errorEnable)
    exact word.map fun w => Reply.faults (.truncate w)
  | eventIntrEnabled =>
    have word := alike.read keeping kept (.switch .intrEnable)
    exact word.map fun w => Reply.flag (Intr.event.isSet w)
  | errorIntrEnabled =>
    have word := alike.read keeping kept (.switch .intrEnable)
    exact word.map fun w => Reply.flag (Intr.error.isSet w)
  | csid => exact (alike.read keeping kept .csid).map Reply.line

theorem setUp (qs : List Setup) : Agree sound stable (h.setUp qs) (g.setUp qs) := by
  induction qs generalizing h g with
  | nil => exact ⟨rfl, alike⟩
  | cons q rest ih =>
    obtain ⟨reply, next⟩ := alike.perform keeping kept q
    obtain ⟨replies, last⟩ := ih next
    exact ⟨congrArg₂ List.cons reply replies, last⟩

end Alike

theorem alike_zero (limits : Limits) (build : Simulator.Build)
    (lines : Register.optionLines ≤ build.lines) :
    Alike Simulator.Lined (MemoryBlock.ofWords []).Spared ⟨Simulator.fresh build, limits⟩
      ⟨MemoryBlock.ofWords [], limits⟩ := by
  constructor
  case left => exact Nat.le_trans lines (Nat.le_of_eq List.length_replicate.symm)
  case right => exact ⟨rfl, fun _ _ => rfl⟩
  case limits => rfl
  case settings =>
    funext q
    cases q with
    | switch s => cases s <;> rfl
    | csid => rfl
    | options line =>
      have zero : held (Simulator.fresh build) (.options line) = 0 := by
        change (List.replicate build.lines (0 : Word)).getD line 0 = 0
        rw [List.getD_eq_getElem?_getD, List.getElem?_replicate]
        split <;> rfl
      have blank : ∀ line : Fin Register.optionLines,
          held (MemoryBlock.ofWords []) (.options line) = 0 := by decide
      exact zero.trans (blank line).symm

/-- A driver that configures its block, and looks at how it is configured, is told the same over a
    block that runs and over plain memory of zeros, whatever its limits are and whatever it asks
    for, in any order. The two hold the same words in the registers that configure a block, and all
    other words of the memory stay zero. -/
theorem backends_agree_on_settings (limits : Limits) (build : Simulator.Build)
    (lines : Register.optionLines ≤ build.lines) (qs : List Setup) :
    let (replies, h) := (Host.mk (Simulator.fresh build) limits).setUp qs
    let (echoes, g) := (Host.mk (MemoryBlock.ofWords []) limits).setUp qs
    replies = echoes ∧ (∀ q : Setting, held h.block q = held g.block q) ∧
      g.block.words.length = MemoryBlock.size ∧
      ∀ i < MemoryBlock.size, Setting.at? i = none → g.block.words[i]? = some 0 := by
  have start := alike_zero limits build lines
  obtain ⟨said, final⟩ := start.setUp Simulator.keeping (MemoryBlock.keeping _) qs
  constructor
  · exact said
  · constructor
    · exact congrFun final.settings
    · constructor
      · exact final.right.whole
      · intro i inside free
        rw [final.right.rest i free]
        simp [MemoryBlock.ofWords, inside]

theorem backends_agree_on_settings_refused :
    let qs : List Setup :=
      [.setTxWatermark 12, .setTxWatermark 80, .setEnable true, .softReset, .setCsid 1, .setCsid 2,
        .setChipOptions 1 { clkdiv := 9, cpha := true }, .setEventsEnabled ⟨0x40⟩ true,
        .setEventsEnabled ⟨0x14⟩ true, .setErrorIntr true, .chipOptions 1, .csid, .eventsEnabled]
    let (replies, h) := (Host.mk (Simulator.fresh { lines := 4 }) { lines := 3 }).setUp qs
    let (echoes, g) := (Host.mk (MemoryBlock.ofWords []) { lines := 3 }).setUp qs
    replies = echoes ∧ echoes.drop 10 =
        [.options (.ok { clkdiv := 9, cpha := true }), .line 1, .events ⟨0x14⟩] ∧
      held h.block (.switch .control) = 0x80000c00 ∧
      g.block.words = [0, 1, 0, 0, 0x80000c00, 0, 0, 0x40000009, 1, 0, 0, 0, 0, 0, 0x14] := by
  intro qs
  obtain ⟨said, holds, -, -⟩ :=
    backends_agree_on_settings { lines := 3 } { lines := 4 } (by decide) qs
  exact ⟨said, by decide, (holds (.switch .control)).trans (by decide), by decide⟩

end Host

end SerialBus
