import SerialBus.Proofs.Engine.Guard
import SerialBus.Proofs.Records
import SerialBus.Proofs.Refusals

namespace SerialBus

open Simulator (Move)

namespace Action

variable {μ : Type}

def isCall : Action μ → Bool
  | init .. | initIndex .. | initInto .. | takeCompletion _ => true
  | a => a.loan?.isSome

theorem isCall_stimulus (a : Action μ) (call : a.isCall = true) {id : PeripheralId}
    {st : Stimulus μ} (stimulus : a.stimulus? id = some st) : st.isCall = true := by
  have kind := Controller.kind?_of_stimulus a stimulus
  cases a with
  | reset | handleIrq | onEvent | onFault | move => cases call
  | execute =>
    obtain ⟨r, -, rfl⟩ := Option.map_eq_some_iff.mp kind
    rfl
  | _ =>
    cases kind
    rfl

end Action

namespace Controller

/-- The actions of the second list are those of the third one, and between them calls of clients,
    each made when the run of the third list from `c` on finds the block `id` busy. -/
inductive Crowded {β μ : Type} [RegisterBlock β] (env : μ → β → β) (id : PeripheralId) :
    Controller β → List (Action μ) → List (Action μ) → Prop
  | nil (c : Controller β) : Crowded env id c [] []
  | own {c : Controller β} (a : Action μ) {crowd own : List (Action μ)}
      (rest : Crowded env id (c.act env a) crowd own) : Crowded env id c (a :: crowd) (a :: own)
  | call {c : Controller β} (a : Action μ) {crowd own : List (Action μ)} (call : a.isCall = true)
      (busy : (c.engine id).state = .busy) (rest : Crowded env id c crowd own) :
      Crowded env id c (a :: crowd) own

section Guard

variable {β μ : Type} [RegisterBlock β]

theorem Crowded.of_calls (env : μ → β → β) {c : Controller β} {id : PeripheralId}
    (busy : (c.engine id).state = .busy) (calls : List (Action μ))
    (call : ∀ a ∈ calls, a.isCall = true) : Crowded env id c calls [] := by
  induction calls with
  | nil => exact .nil c
  | cons a rest ih =>
    exact .call a (call a List.mem_cons_self) busy
      (ih fun b member => call b (List.mem_cons_of_mem a member))

theorem refused_of_busy (env : μ → β → β) {c : Controller β} {id : PeripheralId}
    (busy : (c.engine id).state = .busy) (a : Action μ) {h : Handle} (block : h.id = some id)
    {tx rx : Option Buffer} (loan : a.loan? = some (h, tx, rx)) :
    ∃ failure, c.reply? a = some (.error failure) ∧ failure.buffers.tx = tx ∧
      failure.buffers.rx = rx := by
  rcases c.reply_cases env a h tx rx loan with ⟨r, rfl, rfl, rfl, reply, -⟩ | ⟨reply, -⟩
  · rw [reply]
    cases used : r.handle.isInit with
    | true =>
      have named : r.handle.check = .ok id := by simp only [Handle.check, block, used, if_true]
      have refused : (c.engine id).checkLaunch r.transaction = .error .busy := by
        simp only [Engine.checkLaunch, busy]
        rfl
      refine ⟨⟨.busy, r.transaction.buffers⟩, ?_, rfl, rfl⟩
      simp only [c.submit_of_named r id named, Engine.submit, refused]
    | false =>
      have unnamed : r.handle.check = .error .notInit := by
        simp only [Handle.check, block, used, Bool.false_eq_true, if_false]
      refine ⟨⟨.notInit, r.transaction.buffers⟩, ?_, rfl, rfl⟩
      rw [c.submit_of_unnamed r _ unnamed]
  · exact ⟨_, reply, rfl, rfl⟩

end Guard

variable {c d : Controller Simulator} {limits : Limits} {build : Simulator.Build}
  {id : PeripheralId}

theorem guarded_act (a : Action Move) (sound : Sound c.settings limits)
    (guarded : Engine.Guarded c.settings limits build (c.engine id)) :
    Engine.Guarded c.settings limits build ((c.act Simulator.apply a).engine id) := by
  exact c.engine_keeps Simulator.apply a id guarded fun st _ => guarded.respond sound st

theorem guarded_run (builds : PeripheralId → Simulator.Build)
    (board : Board) (built : Controller.new (freshBlocks builds) board = .ok c)
    (as : List (Action Move)) (id : PeripheralId) :
    Engine.Guarded c.settings (board.hosts.get id) (builds id)
      ((c.run Simulator.apply as).engine id) := by
  have sound := (sane_new builds board built).sound id
  have start : Engine.Guarded c.settings (board.hosts.get id) (builds id) (c.engine id) := by
    refine ⟨switched_new builds board built id, fun bound => ?_⟩
    rw [(new_eq_ok _ board c built).2.2 id] at bound
    exact absurd rfl bound
  exact engine_run Simulator.apply c as id start
    fun _ _ st _ _ guarded => guarded.respond sound st

theorem alike_act (settings : d.settings = c.settings)
    (alike : (c.engine id).Alike (d.engine id)) (a : Action Move) :
    ((c.act Simulator.apply a).engine id).Alike ((d.act Simulator.apply a).engine id) ∧
      (((c.act Simulator.apply a).engine id).parkings ≠ (c.engine id).parkings →
        ((d.act Simulator.apply a).engine id).parked =
          ((c.act Simulator.apply a).engine id).parked) := by
  rw [engine_act, engine_act, settings]
  cases a.stimulus? id with
  | none => exact ⟨alike, fun new => absurd rfl new⟩
  | some st => exact alike.respond c.settings st

theorem Crowded.alike {crowd own : List (Action Move)}
    (crowded : Crowded Simulator.apply id c crowd own) (settings : d.settings = c.settings)
    (sound : Sound c.settings limits)
    (guarded : Engine.Guarded c.settings limits build (d.engine id))
    (alike : (c.engine id).Alike (d.engine id)) :
    ((c.run Simulator.apply own).engine id).Alike ((d.run Simulator.apply crowd).engine id) := by
  induction crowded generalizing d with
  | nil c => exact alike
  | @own c a crowd own rest ih =>
    have next := guarded_act a (settings ▸ sound) (settings ▸ guarded)
    refine ih (d := d.act Simulator.apply a) ?_ ?_ ?_ (alike_act settings alike a).1
    · rw [settings_act, settings_act, settings]
    · rw [settings_act]
      exact sound
    · rw [settings_act, ← settings]
      exact next
  | @call c a crowd own call busy rest ih =>
    have next := guarded_act a (settings ▸ sound) (settings ▸ guarded)
    have same : (d.engine id).Alike ((d.act Simulator.apply a).engine id) := by
      refine d.engine_keeps Simulator.apply a id (.refl _) fun st stimulus => ?_
      rw [settings]
      exact guarded.alike_of_call (alike.busy busy) st (a.isCall_stimulus call stimulus)
    refine ih (d := d.act Simulator.apply a) ?_ sound ?_ (alike.trans same)
    · rw [settings_act, settings]
    · rw [← settings]
      exact next

/-- On a busy block, whatever clients call through whichever handles changes nothing but the parked
    completion and the record of writes, and every transfer they ask for is refused with its
    buffers. A run with such calls put into it ends like the run without them, and what it parks is
    the same as well. Asking for states and giving up handles are no actions: nothing can change. -/
theorem running_transaction_isolated (builds : PeripheralId → Simulator.Build) (board : Board)
    (first : Controller Simulator) (built : Controller.new (freshBlocks builds) board = .ok first)
    (as : List (Action Move)) (id : PeripheralId)
    (busy : ((first.run Simulator.apply as).engine id).state = .busy) :
    let c := first.run Simulator.apply as
    (∀ calls : List (Action Move), (∀ a ∈ calls, a.isCall = true) →
      let d := c.run Simulator.apply calls
      (c.engine id).Alike (d.engine id) ∧
        ∀ (a : Action Move) (h : Handle) (tx rx : Option Buffer), h.id = some id →
          a.loan? = some (h, tx, rx) →
          ∃ failure, d.reply? a = some (.error failure) ∧ failure.buffers.tx = tx ∧
            failure.buffers.rx = rx) ∧
      ∀ crowd own : List (Action Move), Crowded Simulator.apply id c crowd own →
        ((c.run Simulator.apply own).engine id).Alike ((c.run Simulator.apply crowd).engine id) ∧
          ∀ last : Action Move,
            ((c.run Simulator.apply (own ++ [last])).engine id).parkings ≠
                ((c.run Simulator.apply own).engine id).parkings →
              ((c.run Simulator.apply (crowd ++ [last])).engine id).parked =
                ((c.run Simulator.apply (own ++ [last])).engine id).parked := by
  intro c
  have sound : Sound c.settings (board.hosts.get id) := by
    rw [settings_run]
    exact (sane_new builds board built).sound id
  have guarded : Engine.Guarded c.settings (board.hosts.get id) (builds id) (c.engine id) := by
    rw [settings_run]
    exact guarded_run builds board built as id
  refine ⟨fun calls call => ?_, fun crowd own crowded => ?_⟩
  · have alike := (Crowded.of_calls Simulator.apply busy calls call).alike rfl sound guarded
      (.refl _)
    exact ⟨alike, fun a h tx rx block loan =>
      refused_of_busy Simulator.apply (alike.busy busy) a block loan⟩
  · have alike := crowded.alike rfl sound guarded (.refl _)
    refine ⟨alike, fun last => ?_⟩
    have settings : (c.run Simulator.apply crowd).settings =
        (c.run Simulator.apply own).settings := by simp only [settings_run]
    have ended := (alike_act settings alike last).2
    simp only [run, List.foldl_append, List.foldl_cons, List.foldl_nil] at ended ⊢
    exact ended

theorem running_transaction_isolated_bench :
    let slave : Slave := { freq := 10000000 }
    let as : List (Action Move) :=
      [.init .host slave, .transmit benchHandle { words := [1, 2] } 8 {}]
    let c := bench.run Simulator.apply as
    let own : List (Action Move) := [.move .host .tick, .move .host .tick]
    let crowd : List (Action Move) :=
      [.init .host { slave with csid := 1 }, .move .host .tick, .takeCompletion benchHandle,
        .receive benchHandle { words := [0] } 4 {}, .move .host .tick]
    let e := (c.run Simulator.apply (own ++ [.handleIrq .host])).engine .host
    let f := (c.run Simulator.apply (crowd ++ [.handleIrq .host])).engine .host
    ((c.run Simulator.apply own).engine .host).Alike ((c.run Simulator.apply crowd).engine .host) ∧
      e.host.block.sent = [1, 2] ∧ e.parked.isSome = true ∧ f.parked = e.parked := by
  intro slave as c own crowd e f
  have busy : (c.engine .host).state = .busy := by decide +kernel
  have later : ((c.act Simulator.apply (.move .host .tick)).engine .host).state = .busy := by
    decide +kernel
  have crowded : Crowded Simulator.apply .host c crowd own :=
    .call _ rfl busy (.own _ (.call _ rfl later (.call _ rfl later (.own _ (.nil _)))))
  obtain ⟨-, runs⟩ :=
    running_transaction_isolated (fun _ => {}) {} bench rfl as .host busy
  obtain ⟨alike, parked⟩ := runs crowd own crowded
  have new : e.parkings.length ≠ ((c.run Simulator.apply own).engine .host).parkings.length := by
    decide +kernel
  exact ⟨alike, by decide +kernel, by decide +kernel,
    parked (.handleIrq .host) fun same => new (congrArg List.length same)⟩

end Controller

end SerialBus
