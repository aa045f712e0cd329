import SerialBus.Proofs.Answers
import SerialBus.Proofs.Engine.Faultless

namespace SerialBus

open Simulator (Move)

namespace Controller

variable {c : Controller Simulator} {limits : PeripheralId → Limits}
  {builds : PeripheralId → Simulator.Build} {id : PeripheralId}

structure Sane (limits : PeripheralId → Limits) (builds : PeripheralId → Simulator.Build)
    (c : Controller Simulator) : Prop where
  sound : ∀ id, Sound c.settings (limits id)
  wired : ∀ id, Engine.Wired c.settings (limits id) (builds id) (c.engine id)

theorem sane_new (builds : PeripheralId → Simulator.Build) (board : Board)
    (built : Controller.new (.ofFn fun id => Simulator.fresh (builds id)) board = .ok c) :
    Sane board.hosts.get builds c := by
  obtain ⟨valid, settings, engines⟩ := new_eq_ok _ board c built
  refine ⟨fun id => ?_, fun id => ?_⟩
  · rw [settings]
    exact .of_board board valid id
  · rw [engines]
    refine ⟨rfl, ?_, ?_, ?_, ?_, ?_⟩
    · simp only [Trio.get_ofFn, Simulator.fresh]
    · simp only [Trio.get_ofFn, Simulator.fresh]
      decide
    · exact fun some => absurd rfl some
    · exact Lifecycle.noConfusion
    · exact Lifecycle.noConfusion

theorem Sane.act (sane : Sane limits builds c) (a : Action Move)
    (undisturbed : a.undisturbed = true) : Sane limits builds (c.act Simulator.apply a) := by
  refine ⟨fun id => ?_, fun id => ?_⟩
  · rw [settings_act]
    exact sane.sound id
  · rw [settings_act]
    exact c.engine_keeps Simulator.apply a id (sane.wired id) fun st stimulus =>
      (sane.wired id).respond (sane.sound id) st
        (a.honest_stimulus (a.honest_of_undisturbed undisturbed) stimulus)

theorem Sane.run (sane : Sane limits builds c) (as : List (Action Move))
    (undisturbed : ∀ a ∈ as, a.undisturbed = true) :
    Sane limits builds (c.run Simulator.apply as) := by
  induction as generalizing c with
  | nil => exact sane
  | cons a as ih =>
    exact ih (sane.act a (undisturbed a List.mem_cons_self)) fun b member =>
      undisturbed b (List.mem_cons_of_mem a member)

def block (c : Controller Simulator) (id : PeripheralId) : Simulator := (c.engine id).host.block

theorem launched_of_wired {limits : Limits} {build : Simulator.Build} {r : Request}
    (sound : Sound c.settings limits)
    (wired : Engine.Wired c.settings limits build (c.engine id)) {a : Action Move}
    (launched : c.launched? id a = some r) :
    (c.block id).isActive = false ∧ (c.engine id).state ≠ .busy ∧
      Engine.Launched c.settings limits build r (c.engine id)
        ((c.act Simulator.apply a).engine id) := by
  have accepted := engine_launched Simulator.apply launched
  rcases Engine.submit_spec wired sound r with ⟨failure, refused⟩ |
    ⟨f, result, free, inactive, spec⟩
  · rw [refused] at accepted
    cases accepted
  · cases result.symm.trans accepted
    refine ⟨inactive, fun busy => ?_, spec⟩
    rw [busy] at free
    cases free

theorem Sane.launched (sane : Sane limits builds c) (a : Action Move) (r : Request)
    (launched : c.launched? id a = some r) :
    (c.block id).isActive = false ∧ (c.engine id).state ≠ .busy ∧
      Engine.Launched c.settings (limits id) (builds id) r (c.engine id)
        ((c.act Simulator.apply a).engine id) :=
  launched_of_wired (sane.sound id) (sane.wired id) launched

theorem answers_append (c : Controller Simulator) (id : PeripheralId) (as bs : List (Action Move)) :
    c.answers id (as ++ bs) = c.answers id as ++ (c.run Simulator.apply as).answers id bs := by
  induction as generalizing c with
  | nil => rfl
  | cons a as ih =>
    simp only [List.cons_append, answers, ih, List.append_assoc]
    rfl

def losses (id : PeripheralId) : Controller Simulator → List (Action Move) → Losses
  | _, [] => {}
  | c, a :: as =>
    (match a.stimulus? id with
      | some st => (c.engine id).loses st
      | none => {}) + losses id (c.act Simulator.apply a) as

theorem losses_append (c : Controller Simulator) (id : PeripheralId) (as bs : List (Action Move)) :
    c.losses id (as ++ bs) = c.losses id as + (c.run Simulator.apply as).losses id bs := by
  induction as generalizing c with
  | nil => exact (Losses.none_add _).symm
  | cons a as ih =>
    simp only [List.cons_append, losses, ih, Losses.add_assoc]
    rfl

theorem losses_of_unreset (c : Controller Simulator) (id : PeripheralId) (as : List (Action Move))
    (unreset : ∀ a ∈ as, a.stimulus? id ≠ some .reset) : c.losses id as = {} := by
  induction as generalizing c with
  | nil => rfl
  | cons a as ih =>
    rw [losses, ih _ fun b member => unreset b (List.mem_cons_of_mem a member)]
    cases stimulus : a.stimulus? id with
    | none => rfl
    | some st =>
      refine (c.engine id).loses_of_unreset st fun reset => ?_
      exact unreset a List.mem_cons_self (stimulus.trans (congrArg some reset))

theorem losses_of_undisturbed (c : Controller Simulator) (id : PeripheralId)
    (as : List (Action Move)) (undisturbed : ∀ a ∈ as, a.undisturbed = true) :
    c.losses id as = {} :=
  c.losses_of_unreset id as fun a member reset =>
    (Stimulus.reset (μ := Move)).unreset_of_undisturbed
      (a.undisturbed_stimulus (undisturbed a member) reset) rfl

theorem entered_run {P : Losses → List Word → Engine Simulator → Prop} {lost : Losses}
    {received : List Word} (as : List (Action Move)) (start : P lost received (c.engine id))
    (busy : BusyThrough Simulator.apply id c as)
    (step : ∀ a ∈ as, ∀ st, a.stimulus? id = some st → ∀ lost received e, P lost received e →
      e.state = .busy → (e.respond Simulator.apply c.settings st).state = .busy →
      P (lost + e.loses st) (received ++ e.answered st)
        (e.respond Simulator.apply c.settings st)) :
    P (lost + c.losses id as) (received ++ c.answers id as)
      ((c.run Simulator.apply as).engine id) := by
  induction as generalizing c lost received with
  | nil =>
    rw [answers, List.append_nil]
    exact start
  | cons a as ih =>
    obtain ⟨now, later⟩ := busy
    have after := later.busy
    have kept : P (lost + c.losses id [a]) (received ++ c.answers id [a])
        ((c.act Simulator.apply a).engine id) := by
      rw [engine_act] at after ⊢
      cases stimulus : a.stimulus? id with
      | none =>
        simp only [losses, answers, stimulus, Losses.add_none, List.append_nil]
        exact start
      | some st =>
        rw [stimulus] at after
        simp only [losses, answers, stimulus, Losses.add_none, List.append_nil]
        exact step a List.mem_cons_self st stimulus _ _ _ start now after
    rw [show a :: as = [a] ++ as from rfl, losses_append, answers_append, ← List.append_assoc,
      ← Losses.add_assoc]
    refine ih (c := c.act Simulator.apply a) kept later fun b member => ?_
    rw [settings_act]
    exact step b (List.mem_cons_of_mem a member)

section Books

variable {limits : Limits} {build : Simulator.Build} {base : Simulator} {r : Request}
  {lost : Losses} {received : List Word}

theorem booked_run (sound : Sound c.settings limits)
    (wired : Engine.Wired c.settings limits build (c.engine id))
    (booked : Engine.Booked base r lost received (c.engine id)) (as : List (Action Move))
    (honest : ∀ a ∈ as, a.honest = true) (busy : BusyThrough Simulator.apply id c as) :
    Engine.Booked base r (lost + c.losses id as) (received ++ c.answers id as)
        ((c.run Simulator.apply as).engine id) ∧
      ((c.run Simulator.apply as).engine id).state = .busy ∧
      Engine.Wired c.settings limits build ((c.run Simulator.apply as).engine id) := by
  refine entered_run (P := fun lost received e => Engine.Booked base r lost received e ∧
    e.state = .busy ∧ Engine.Wired c.settings limits build e) as
    ⟨booked, busy.busy, wired⟩ busy ?_
  intro a member st stimulus lost received e ⟨booked, _, wired⟩ now after
  have allowed := a.honest_stimulus (honest a member) stimulus
  have next := wired.respond sound st allowed
  cases wired.books sound now booked st allowed with
  | on busy entered => exact ⟨entered, busy, next⟩
  | accounted _ _ _ accounted =>
    rw [accounted.free] at after
    cases after
  | failed failed =>
    rw [failed.free] at after
    cases after

theorem booked_ended (sound : Sound c.settings limits)
    (wired : Engine.Wired c.settings limits build (c.engine id))
    (booked : Engine.Booked base r lost received (c.engine id)) (a : Action Move)
    (honest : a.honest = true) (busy : (c.engine id).state = .busy)
    (ended : ((c.act Simulator.apply a).engine id).state ≠ .busy) :
    (c.losses id [a] = {} ∧ c.answers id [a] = [] ∧
        Engine.Accounted base r r.handle.slave.line lost received (c.engine id)
          ((c.act Simulator.apply a).engine id)) ∨
      Engine.Failed (c.engine id) ((c.act Simulator.apply a).engine id) := by
  rw [engine_act] at ended ⊢
  cases stimulus : a.stimulus? id with
  | none =>
    rw [stimulus] at ended
    exact absurd busy ended
  | some st =>
    rw [stimulus] at ended
    cases wired.books sound busy booked st (a.honest_stimulus honest stimulus) with
    | on busy _ => exact absurd busy ended
    | accounted _ silent nothing accounted =>
      refine .inl ⟨?_, ?_, accounted⟩
      · simp only [losses, stimulus, nothing]
        rfl
      · simp only [answers, stimulus, silent, List.append_nil]
    | failed failed => exact .inr failed

theorem course_accounted (sound : Sound c.settings limits)
    (wired : Engine.Wired c.settings limits build (c.engine id)) {call last : Action Move}
    {during : List (Action Move)} (course : Course Simulator.apply id c r call during last)
    (honest : ∀ a ∈ during ++ [last], a.honest = true) :
    Engine.Accounted (c.block id) r r.handle.slave.line
        ((c.act Simulator.apply call).losses id (during ++ [last]))
        ((c.act Simulator.apply call).answers id (during ++ [last]))
        ((c.run Simulator.apply (call :: during)).engine id)
        (((c.run Simulator.apply (call :: during)).act Simulator.apply last).engine id) ∨
      Engine.Failed ((c.run Simulator.apply (call :: during)).engine id)
        (((c.run Simulator.apply (call :: during)).act Simulator.apply last).engine id) := by
  obtain ⟨-, -, launched⟩ := launched_of_wired sound wired course.launched
  have begun := launched.wired
  have booked := Engine.underway_iff.mp launched.underway
  rw [← settings_act Simulator.apply c call] at sound begun
  obtain ⟨booked, busy, wired⟩ := booked_run sound begun booked during
    (fun a member => honest a (List.mem_append_left _ member)) course.running
  rw [← settings_run Simulator.apply _ during] at sound wired
  rcases booked_ended sound wired booked last (honest last (by simp)) busy course.ended with
    ⟨nothing, silent, accounted⟩ | failed
  · rw [losses_append, answers_append, nothing, silent, List.append_nil, Losses.add_none]
    rw [Losses.none_add, List.nil_append] at accounted
    exact .inl accounted
  · exact .inr failed

end Books

theorem Sane.underway_run (sane : Sane limits builds c) {base : Simulator} {r : Request}
    {received : List Word} (underway : Engine.Underway base r received (c.engine id))
    (as : List (Action Move)) (undisturbed : ∀ a ∈ as, a.undisturbed = true)
    (busy : BusyThrough Simulator.apply id c as) :
    Engine.Underway base r (received ++ c.answers id as) ((c.run Simulator.apply as).engine id) ∧
      ((c.run Simulator.apply as).engine id).state = .busy := by
  obtain ⟨booked, still, -⟩ := booked_run (sane.sound id) (sane.wired id)
    (Engine.underway_iff.mp underway) as
    (fun a member => a.honest_of_undisturbed (undisturbed a member)) busy
  rw [c.losses_of_undisturbed id as undisturbed] at booked
  exact ⟨Engine.underway_iff.mpr booked, still⟩

def freshBlocks (builds : PeripheralId → Simulator.Build) : Trio Simulator :=
  .ofFn fun id => Simulator.fresh (builds id)

theorem sane_of_reached {builds : PeripheralId → Simulator.Build} {board : Board}
    (reached : Reached Simulator.apply (fun a => a.undisturbed = true) (freshBlocks builds) board
      c) :
    Sane board.hosts.get builds c := by
  obtain ⟨first, as, built, undisturbed, rfl⟩ := reached
  exact (sane_new builds board built).run as undisturbed

theorem Sane.course (sane : Sane limits builds c) {r : Request} {call last : Action Move}
    {during : List (Action Move)} (course : Course Simulator.apply id c r call during last)
    (undisturbed : ∀ a ∈ call :: during ++ [last], a.undisturbed = true) :
    r.transaction.validate = .ok () ∧
        Engine.Delivered (c.block id) r r.handle.slave.line
          ((c.act Simulator.apply call).answers id (during ++ [last]))
          ((c.run Simulator.apply (call :: during)).engine id)
          (((c.run Simulator.apply (call :: during)).act Simulator.apply last).engine id) ∨
      Engine.Failed ((c.run Simulator.apply (call :: during)).engine id)
        (((c.run Simulator.apply (call :: during)).act Simulator.apply last).engine id) := by
  have after : ∀ a ∈ during ++ [last], a.undisturbed = true := fun a member =>
    undisturbed a (List.mem_cons_of_mem call member)
  rcases course_accounted (sane.sound id) (sane.wired id) course
      fun a member => a.honest_of_undisturbed (after a member) with accounted | failed
  · rw [losses_of_undisturbed _ id _ after] at accounted
    exact .inl ⟨accounted.valid, accounted.delivered⟩
  · exact .inr failed

structure Pristine (limits : PeripheralId → Limits) (builds : PeripheralId → Simulator.Build)
    (c : Controller Simulator) : Prop extends Sane limits builds c where
  lines : ∀ id, (limits id).lines.toNat ≤ (builds id).lines
  clean : ∀ id, Engine.Clean (builds id) (c.engine id)

theorem Pristine.act (pristine : Pristine limits builds c) (a : Action Move)
    (orderly : a.Orderly) : Pristine limits builds (c.act Simulator.apply a) := by
  refine ⟨pristine.toSane.act a (a.undisturbed_of_faultless orderly.faultless), pristine.lines,
    fun id => ?_⟩
  rw [engine_act]
  cases stimulus : a.stimulus? id with
  | none => exact pristine.clean id
  | some st =>
    refine (pristine.clean id).respond (pristine.wired id) (pristine.sound id) (pristine.lines id)
      st (a.faultless_stimulus orderly.faultless stimulus) fun q submitted => ?_
    subst submitted
    cases request : a.request? with
    | none => exact absurd stimulus (stimulus?_of_no_request a id q request)
    | some r =>
      rw [stimulus?_of_request a r id request] at stimulus
      split at stimulus
      · cases stimulus
        exact orderly.constructed q request
      · cases stimulus

theorem Pristine.run (pristine : Pristine limits builds c) (as : List (Action Move))
    (orderly : ∀ a ∈ as, a.Orderly) : Pristine limits builds (c.run Simulator.apply as) := by
  induction as generalizing c with
  | nil => exact pristine
  | cons a as ih =>
    exact ih (pristine.act a (orderly a List.mem_cons_self)) fun b member =>
      orderly b (List.mem_cons_of_mem a member)

theorem pristine_new (builds : PeripheralId → Simulator.Build) (board : Board)
    (lines : ∀ id, (board.hosts.get id).lines.toNat ≤ (builds id).lines)
    (built : Controller.new (freshBlocks builds) board = .ok c) :
    Pristine board.hosts.get builds c := by
  obtain ⟨-, -, engines⟩ := new_eq_ok _ board c built
  refine ⟨sane_new builds board built, lines, fun id => ?_⟩
  rw [engines, freshBlocks, Trio.get_ofFn]
  exact ⟨rfl, fun _ => ⟨rfl, rfl, rfl⟩, Lifecycle.noConfusion⟩

/-- A controller over blocks of the usual size. -/
def bench : Controller Simulator where
  engines := .ofFn fun id => { id, host := ⟨Simulator.fresh {}, {}⟩ }
  settings := {}

def benchHandle : Handle := { id := some .host, isInit := true }

def fitted : Controller Simulator := bench.run Simulator.apply [.init .host { freq := 10000000 }]

theorem fitted_reached (allowed : Action Move → Prop)
    (init : allowed (.init .host { freq := 10000000 })) :
    Reached Simulator.apply allowed (freshBlocks fun _ => {}) {} fitted :=
  ⟨bench, _, rfl, by simpa using init, rfl⟩

end Controller

end SerialBus
