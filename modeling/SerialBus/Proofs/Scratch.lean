import SerialBus.Proofs.Bus.Holding
import SerialBus.Proofs.Loans

namespace SerialBus

namespace Controller

variable {β : Type} [RegisterBlock β] {c : Controller β}

theorem named_of_accepted {h : Handle} {t : Transaction} {callbacks : Callbacks}
    {d : Controller β} (accepted : c.submit h t callbacks = (.ok (), d)) :
    ∃ id, h.id = some id ∧ h.check = .ok id := by
  rcases check_cases h with ⟨id, named, -⟩ | ⟨err, unnamed, -⟩
  · have names := names_of_check named
    rw [Handle.names, Bool.and_eq_true, beq_iff_eq] at names
    exact ⟨id, names.1, named⟩
  · cases (c.submit_of_unnamed ⟨h, t, callbacks⟩ err unnamed).symm.trans accepted

end Controller

namespace Blocking

variable {β μ ω : Type} [RegisterBlock β] {env : μ → β → β} {blocks : Trio β} {board : Board}
  {c : Controller β} {w : Wait (Controller β × ω)} {h : Handle}

theorem run_brings_back (reached : Controller.Reached env (fun _ => True) blocks board c)
    (plays : ∀ id, h.id = some id →
      Controller.Plays env (fun a : Action μ => a.leaves id = true) w)
    (t : Transaction) (o : ω)
    (ends : ∀ started, c.submit h t {} = (.ok (), started) →
      (w.poll (look h) (started, o)).1.isSome = true) :
    ∃ answer back d, run w h t (c, o) = (bring answer back, d) ∧
      back.tx = t.buffers.tx ∧
      back.rx.map Buffer.site = t.buffers.rx.map Buffer.site ∧
      Controller.Reached env (fun _ => True) blocks board d.1 := by
  rcases submitted : c.submit h t {} with ⟨answer, started⟩
  have reach : Controller.Reached env (fun _ => True) blocks board started := by
    have acted : c.run env [.submit h t {}] = started := congrArg Prod.snd submitted
    rw [← acted]
    exact reached.run _ fun _ _ => trivial
  cases answer with
  | error failure =>
    obtain ⟨first, as, built, -, rfl⟩ := reached
    have kept := (Controller.kept_new blocks board built).run env as
    have reply : (first.run env as).reply? (.submit h t {} : Action μ) = some (.error failure) :=
      congrArg (some ∘ Prod.fst) submitted
    obtain ⟨tx, rx⟩ := kept.refunded env _ h t.buffers.tx t.buffers.rx failure rfl reply
    exact ⟨.error failure.error, failure.buffers, _, run_of_refused w submitted o, tx,
      congrArg _ rx, reach⟩
  | ok _ =>
    obtain ⟨id, block, named⟩ := Controller.named_of_accepted submitted
    rw [run_of_accepted w submitted o]
    rcases w.poll_cases (peeks_look h) (started, o) with ⟨k, -, found, poll⟩ | ⟨k, poll, -⟩
    · -- a wait that ends has looked at a free block, and nobody took what was parked there
      have free : ((w.after k (started, o)).1.engine id).state ≠ .busy := by
        intro busy
        rw [look, collect_of_busy named busy] at found
        cases found
      obtain ⟨done, same, slot⟩ := parked_after (plays id block)
        (Controller.id_of_reached id reached []) named submitted k free
      obtain ⟨during, -, played⟩ := (plays id block).after k (started, o)
      rw [poll, (look_of_free named free).2, slot]
      refine ⟨_, done.buffers, _, Prod.ext (result_eq_bring done) rfl, same.tx, same.rx, ?_⟩
      rw [played]
      exact (reach.run during fun _ _ => trivial).run [.takeCompletion h] fun _ _ => trivial
    · have ended := ends started submitted
      rw [poll] at ended
      cases ended

end Blocking

namespace WordBus

variable {β μ ω : Type} [RegisterBlock β] {w : Wait (Controller β × ω)} {b : WordBus β ω}
  {tx rx : Buffer}

/-- The first `done` pieces are moved, and the next one is refused or fails with the error. -/
inductive Stops (w : Wait (Controller β × ω)) (way : Way) :
    Pieces → WordBus β ω → Nat → TransferError → Prop
  | here {out dst rest b err last} (moved : way.move w out dst b = (.error err, last)) :
      Stops w way ((out, dst) :: rest) b 0 err
  | later {out dst rest b next done err} (moved : way.move w out dst b = (.ok (), next))
      (stops : Stops w way rest next done err) :
      Stops w way ((out, dst) :: rest) b (done + 1) err

/-- Pieces are moved with each index in range, and what is to be received is as it was from a piece
    on that is not moved. -/
structure Tidy (w : Wait (Controller β × ω)) (way : Way) (ps : Pieces) (b : WordBus β ω)
    (moving : Except TransferError Unit × List Word × WordBus β ω) : Prop where
  checked : forEach? w way ps b = some moving
  length : moving.2.1.length = (ps.map Prod.snd).flatten.length
  spared : ∀ err, moving.1 = .error err → ∃ done, Stops w way ps b done err ∧
    moving.2.1.drop ((ps.map Prod.snd).take done).flatten.length =
      ((ps.map Prod.snd).drop done).flatten

def Call.Stops (w : Wait (Controller β × ω)) (b : WordBus β ω) (call : Call) (done : Nat)
    (err : TransferError) : Prop :=
  if b.chunkSize = 0 then done = 0 ∧ err = .lengthInvalid
  else WordBus.Stops w call.way (call.pieces b.chunkSize) b done err

/-- The wait that begins in `s` ends with a look that finds the transaction over. -/
def Ends (w : Wait (Controller β × ω)) (h : Handle) (s : Controller β × ω) : Prop :=
  (w.poll (Blocking.look h) s).1.isSome = true

instance (w : Wait (Controller β × ω)) (h : Handle) (s : Controller β × ω) :
    Decidable (Ends w h s) :=
  inferInstanceAs (Decidable (_ = true))

/-- What happens in the life of a bus: a call, or anything at all between two calls. -/
inductive Step (μ ω : Type)
  | serve (call : Call)
  | between (as : List (Action μ)) (o : ω)

def Step.run (w : Wait (Controller β × ω)) (env : μ → β → β) (b : WordBus β ω) :
    Step μ ω → WordBus β ω
  | .serve call => (call.run w b).2.2
  | .between as o => { b with shared := (b.shared.1.run env as, o) }

def run (w : Wait (Controller β × ω)) (env : μ → β → β) (b : WordBus β ω)
    (steps : List (Step μ ω)) : WordBus β ω :=
  steps.foldl (Step.run w env) b

def AllEnd (w : Wait (Controller β × ω)) (env : μ → β → β) : WordBus β ω → List (Step μ ω) → Prop
  | _, [] => True
  | b, step :: steps =>
    (match step with
      | .serve call => ∀ s ∈ call.waits w b, Ends w b.handle s
      | .between .. => True) ∧
      AllEnd w env (step.run w env b) steps

section

variable {env : μ → β → β} {blocks : Trio β} {board : Board} {h : Handle}
  (plays : ∀ id, h.id = some id →
    Controller.Plays env (fun a : Action μ => a.leaves id = true) w)

include plays

theorem Ready.move (ready : Ready env blocks board h tx rx b) (way : Way) (out dst : List Word)
    (fits : out.length ≤ tx.size) (ends : ∀ s ∈ way.wait? out dst b, Ends w h s) :
    Ready env blocks board h tx rx (way.move w out dst b).2 := by
  obtain ⟨s, r, sends, receives⟩ := ready.exists_scratch
  have lent : way.transaction? out dst b = _ := Way.transaction?_eq sends receives way
  obtain ⟨answer, back, d, ran, sent, filled, reach⟩ :=
    Blocking.run_brings_back ready.reached plays (way.transaction s r out dst) b.shared.2
      (fun started accepted => by
        refine ends (started, b.shared.2) ?_
        rw [Way.wait?, lent, ready.handle]
        simp only [accepted, Option.mem_some_iff])
  rw [← ready.handle] at ran
  rw [Way.move_eq lent ran]
  exact ⟨ready.regain sends receives fits way d sent filled,
    (way.handle_regain back d b).trans ready.handle, reach⟩

theorem Ready.forEach (ready : Ready env blocks board h tx rx b) (way : Way) {n : Nat}
    (inTx : n ≤ tx.size) (inRx : n ≤ rx.size) (small : n * 4 < 2 ^ 32) (ps : Pieces)
    (short : ∀ p ∈ ps, p.1.length ≤ n ∧ p.2.length ≤ n)
    (ends : ∀ s ∈ waits w way ps b, Ends w h s) :
    Ready env blocks board h tx rx (forEach (way.move w) ps b).2.2 ∧
      Tidy w way ps b (forEach (way.move w) ps b) := by
  -- each piece brings the scratch buffers back, so there is room for the next one
  induction ps generalizing b with
  | nil => exact ⟨ready, rfl, rfl, fun err failed => nomatch failed⟩
  | cons p rest ih =>
    obtain ⟨out, dst⟩ := p
    obtain ⟨outShort, dstShort⟩ := short _ List.mem_cons_self
    simp only at outShort dstShort
    have inside := ready.inside_of_fits way out (Nat.le_trans outShort inTx)
    have measured : Measured out dst := by
      rw [Measured]
      omega
    have next := ready.move plays way out dst (Nat.le_trans outShort inTx) fun s member =>
      ends s (List.mem_append_left _ (Option.mem_toList.mpr member))
    rcases moved : way.move w out dst b with ⟨err | ⟨⟩, last⟩
    · rw [moved] at next
      rw [forEach_of_failed moved]
      refine ⟨next, ?_, ?_, fun e failed => ?_⟩
      · simp only [forEach?, inside, measured, moved, Bool.true_eq_false, not_true_eq_false,
          or_self, if_false]
      · rw [List.map_cons, List.flatten_cons]
      · cases failed
        exact ⟨0, .here moved, rfl⟩
    · rw [moved] at next
      rw [waits_of_moved moved] at ends
      rw [forEach_of_moved moved]
      have next : Ready env blocks board h tx rx last := next
      obtain ⟨ready, tidy⟩ := ih next (fun p member => short p (List.mem_cons_of_mem _ member))
        fun s member => ends s (List.mem_append_right _ member)
      obtain ⟨_, receiving, -, receives⟩ := next.exists_scratch
      have fits : dst.length ≤ receiving.size := by
        rw [next.size_rx receives]
        exact Nat.le_trans dstShort inRx
      have count : (last.received dst).length = dst.length := by
        rw [received, receives]
        exact List.length_take_of_le fits
      refine ⟨ready, ?_, ?_, fun err failed => ?_⟩
      · simp only [forEach?, inside, measured, moved, receives, fits, tidy.checked,
          Bool.true_eq_false, not_true_eq_false, or_self, if_false, Option.all_some,
          decide_true, Option.map_some]
      · rw [List.map_cons, List.flatten_cons, List.length_append, List.length_append, count,
          tidy.length]
      · obtain ⟨done, stops, spared⟩ := tidy.spared err failed
        refine ⟨done + 1, .later moved stops, ?_⟩
        rw [List.map_cons, List.take_succ_cons, List.flatten_cons, List.length_append,
          List.drop_succ_cons, ← spared, ← count, List.drop_length_add_append]

omit plays in
theorem Call.Stops.of_no_room {w : Wait (Controller β × ω)} {b : WordBus β ω} (call : Call)
    (none : b.chunkSize = 0) : call.Stops w b 0 .lengthInvalid := by
  rw [Call.Stops, if_pos none]
  exact ⟨rfl, rfl⟩

theorem Ready.call (ready : Ready env blocks board h tx rx b)
    (small : min tx.size rx.size < 2 ^ 22) (call : Call)
    (ends : ∀ s ∈ call.waits w b, Ends w h s) :
    Ready env blocks board h tx rx (call.run w b).2.2 ∧
      call.run? w b = some (call.run w b) ∧
      (call.run w b).2.1.length = call.target.length ∧
      ∀ err, (call.run w b).1 = .error err → ∃ done, call.Stops w b done err ∧
        (call.run w b).2.1.drop (done * b.chunkSize) = call.target.drop (done * b.chunkSize) := by
  rw [call.run_eq]
  by_cases none : b.chunkSize = 0
  · rw [if_pos none, Call.run?, if_pos none]
    refine ⟨ready, rfl, rfl, fun err failed => ?_⟩
    cases failed
    exact ⟨0, .of_no_room call none, rfl⟩
  have size := ready.chunkSize_eq
  have positive : 0 < b.chunkSize := Nat.pos_of_ne_zero none
  rw [Call.waits, if_neg none] at ends
  obtain ⟨ready, tidy⟩ := ready.forEach plays call.way (by omega) (by omega) (by omega)
    (call.pieces b.chunkSize) (call.pieces_le positive) ends
  rw [if_neg none, Call.run?, if_neg none, tidy.checked]
  have cut := (call.cut_pieces positive).2
  have length := tidy.length.trans (congrArg List.length (cut.flatten_eq positive))
  have whole := call.take_destination
  have room : call.target.length ≤ call.destination.length := by
    rw [← whole, List.length_take]
    exact Nat.min_le_right _ _
  refine ⟨ready, rfl, ?_, fun err failed => ?_⟩
  · rw [List.length_take, length, Nat.min_eq_left room]
  · obtain ⟨done, stops, spared⟩ := tidy.spared err failed
    refine ⟨done, by rwa [Call.Stops, if_neg none], ?_⟩
    rw [List.drop_take, cut.drop_eq positive tidy.length done spared, ← List.drop_take, whole]

theorem Ready.run (ready : Ready env blocks board h tx rx b)
    (small : min tx.size rx.size < 2 ^ 22) (steps : List (Step μ ω))
    (ends : AllEnd w env b steps) : Ready env blocks board h tx rx (b.run w env steps) := by
  induction steps generalizing b with
  | nil => exact ready
  | cons step steps ih =>
    refine ih ?_ ends.2
    cases step with
    | serve call =>
      refine (ready.call plays small call ?_).1
      rw [← ready.handle]
      exact ends.1
    | between as o =>
      exact ⟨⟨ready.tx, ready.rx⟩, ready.handle, ready.reached.run as fun _ _ => trivial⟩

end

/-- Whatever calls a bus has served, and whatever has happened between them to its controller, to the
    blocks and by other clients, it has the two scratch buffers that it was made with, as long as
    they were. In a further call no index is out of range and no length in bytes overflows, the bus
    has the scratch buffers again after it, and if it fails, the words to be received are as they
    were from the failing piece on. During a call nobody else may ask for a transfer on its block or
    take a completion of it, and its waits end. -/
theorem scratch_comes_back (env : μ → β → β) {blocks : Trio β} {board : Board} {c : Controller β}
    (reached : Controller.Reached env (fun _ => True) blocks board c)
    (w : Wait (Controller β × ω)) (h : Handle)
    (plays : ∀ id, h.id = some id →
      Controller.Plays env (fun a : Action μ => a.leaves id = true) w)
    (tx rx : Buffer) (small : min tx.size rx.size < 2 ^ 22) (o : ω) (steps : List (Step μ ω)) :
    let bus : WordBus β ω := ⟨h, some tx, some rx, (c, o)⟩
    let b := bus.run w env steps
    AllEnd w env bus steps →
      Holds tx rx b ∧
        ∀ call : Call, (∀ s ∈ call.waits w b, Ends w h s) →
          let (answer, ws, after) := call.run w b
          call.run? w b = some (answer, ws, after) ∧ Holds tx rx after ∧
            ws.length = call.target.length ∧
            ∀ err, answer = .error err → ∃ done, call.Stops w b done err ∧
              let moved := done * min tx.size rx.size
              ws.drop moved = call.target.drop moved := by
  intro bus b ends
  have ready : Ready env blocks board h tx rx b :=
    Ready.run plays ⟨⟨rfl, rfl⟩, rfl, reached⟩ small steps ends
  refine ⟨ready.toHolds, fun call waits => ?_⟩
  obtain ⟨after, checked, length, failing⟩ := ready.call plays small call waits
  refine ⟨checked, after.toHolds, length, ?_⟩
  rw [← ready.chunkSize_eq]
  exact failing

def faltering : Wait (Controller Simulator × Nat) where
  pause s :=
    let happens : List (Action Simulator.Move) :=
      if s.2 = 2 then [.move .host (.inject 4)] else [.move .host .tick, .move .host .tick]
    (true, (s.1.run Simulator.apply happens).handleIrq .host, s.2 + 1)
  limit := 1

theorem plays_faltering :
    Controller.Plays Simulator.apply (fun a : Action Simulator.Move => a.isQuiet = true)
      faltering := by
  intro s
  by_cases third : s.2 = 2
  · exact ⟨[.move .host (.inject 4), .handleIrq .host], by simp [Action.isQuiet],
      by simp only [faltering, third, if_true]; rfl⟩
  · exact ⟨[.move .host .tick, .move .host .tick, .handleIrq .host], by simp [Action.isQuiet],
      by simp only [faltering, third, if_false]; rfl⟩

theorem scratch_comes_back_faltering :
    let tx : Buffer := { address := 1, words := [0, 0, 0] }
    let rx : Buffer := { address := 2, words := [0, 0] }
    let bus : WordBus Simulator Nat :=
      ⟨Controller.benchHandle, some tx, some rx, (Controller.fitted, 0)⟩
    let b := bus.run faltering Simulator.apply [.serve (.write [1, 2])]
    let call : Call := .transferInPlace [5, 6, 7]
    let (answer, ws, after) := call.run faltering b
    answer = .error (.hardware Faults.underflow) ∧ Holds tx rx after ∧
      ∃ done, call.Stops faltering b done (.hardware Faults.underflow) ∧
        ws.drop (done * 2) = [5, 6, 7].drop (done * 2) := by
  intro tx rx bus b call
  obtain ⟨-, calls⟩ := scratch_comes_back Simulator.apply
    (Controller.fitted_reached (fun _ => True) trivial) faltering Controller.benchHandle
    (fun id _ => plays_faltering.mono fun a quiet => a.leaves_of_quiet quiet id) tx rx
    (by decide) 0 [.serve (.write [1, 2])] ⟨by decide +kernel, trivial⟩
  obtain ⟨-, holds, -, failing⟩ := calls call (by decide +kernel)
  have failed : (call.run faltering b).1 = .error (.hardware Faults.underflow) := by
    decide +kernel
  exact ⟨failed, holds, failing _ failed⟩

end WordBus

end SerialBus
