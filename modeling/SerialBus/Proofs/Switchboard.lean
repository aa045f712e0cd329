import SerialBus.Proofs.Effects
import SerialBus.Proofs.Host.Storing

namespace SerialBus

open RegisterBlock (shown)

namespace Control

def fields : List Field := [rxWatermark, txWatermark, outputEnable, reset, enable]

theorem fits {f : Field} (known : f ∈ fields) : f.Fits := by
  revert f
  decide

theorem apart {f g : Field} (known : f ∈ fields) (own : g ∈ fields) (differ : g ≠ f) :
    f.Disjoint g := by
  have all : ∀ f ∈ fields, ∀ g ∈ fields, g ≠ f → f.Disjoint g := by decide
  exact all f known g own differ

theorem minds {f g : Field} (known : f ∈ fields) (own : g ∈ fields) {v : Nat}
    (small : v < 2 ^ g.width) : (Update.put g v).Minds f := by
  by_cases same : g = f
  · subst same
    exact .own v small
  · exact .other g v (fits own) (apart known own same) same

end Control

namespace Host

def Checked.update? (limits : Limits) : Checked → Option (Switch × Update)
  | setEventsEnabled events on =>
    if FlagSet.all.contains events then some (.eventEnable, .switch events.bits on) else none
  | setFaultsEnabled faults on =>
    if Faults.interrupting.contains faults then some (.errorEnable, .switch faults.bits on)
    else none
  | setTxWatermark level =>
    if limits.txDepth < level then none
    else some (.control, .put Control.txWatermark level.toNat)
  | setRxWatermark level =>
    if limits.rxDepth < level then none
    else some (.control, .put Control.rxWatermark level.toNat)
  | _ => none

/-- A reset raises its bit and takes it down again, which leaves it down. -/
def Plain.update? : Plain → Option (Switch × Update)
  | disableEvents => some (.eventEnable, .switch (BitVec.allOnes 32) false)
  | softReset => some (.control, .put Control.reset 0)
  | setEnable on => some (.control, .put Control.enable on.toNat)
  | setOutputEnable on => some (.control, .put Control.outputEnable on.toNat)
  | setEventIntr on => some (.intrEnable, .put Intr.event on.toNat)
  | setErrorIntr on => some (.intrEnable, .put Intr.error on.toNat)
  | _ => none

namespace Turn

variable {μ : Type}

def update? (limits : Limits) : Turn μ → Option (Switch × Update)
  | call (.checked q) => q.update? limits
  | call (.plain q) => q.update?
  | move _ => none

def updateOf? (limits : Limits) (s : Switch) (t : Turn μ) : Option Update :=
  (t.update? limits).bind s.updateOf?

def argument? (limits : Limits) (f : Field) (t : Turn μ) : Option Nat :=
  (t.updateOf? limits .control).bind (Update.valueIn? f)

def bits (limits : Limits) (s : Switch) (t : Turn μ) : Word :=
  (t.updateOf? limits s).elim 0 Update.bits

/-- Two turns that address no bit in common. -/
def Apart (limits : Limits) (t u : Turn μ) : Prop :=
  ∀ s, t.bits limits s &&& u.bits limits s = 0

/-- The same turns, where some that are apart have changed places. -/
inductive Reordered (limits : Limits) : List (Turn μ) → List (Turn μ) → Prop
  | refl (ts : List (Turn μ)) : Reordered limits ts ts
  | swap (front back : List (Turn μ)) {t u : Turn μ} (apart : t.Apart limits u) :
    Reordered limits (front ++ t :: u :: back) (front ++ u :: t :: back)
  | trans {ts us vs : List (Turn μ)} (first : Reordered limits ts us)
    (second : Reordered limits us vs) : Reordered limits ts vs

theorem updateOf?_of_update? {limits : Limits} {t : Turn μ} {s : Switch} {u : Update}
    (changes : t.update? limits = some (s, u)) : t.updateOf? limits s = some u := by
  rw [updateOf?, changes, Option.bind_some, Switch.updateOf?, if_pos rfl]

theorem update?_of_updateOf? {limits : Limits} {t : Turn μ} {s : Switch} {u : Update}
    (changes : t.updateOf? limits s = some u) : t.update? limits = some (s, u) := by
  obtain ⟨⟨r, v⟩, granted, own⟩ := Option.bind_eq_some_iff.mp changes
  simp only [Switch.updateOf?, Option.ite_none_right_eq_some, Option.some.injEq] at own
  rw [granted, own.1, own.2]

theorem filterMap_updateOf? (limits : Limits) (s : Switch) (ts : List (Turn μ)) :
    (ts.filterMap (update? limits)).filterMap s.updateOf? = ts.filterMap (updateOf? limits s) :=
  List.filterMap_filterMap ..

theorem put_of_control {limits : Limits} {t : Turn μ} {u : Update}
    (changes : t.updateOf? limits .control = some u) :
    ∃ f v, u = .put f v ∧ f ∈ Control.fields ∧ v < 2 ^ f.width ∧ (f = Control.reset → v = 0) := by
  have granted := update?_of_updateOf? changes
  cases t with
  | move m => cases granted
  | call o =>
    cases o with
    | checked q =>
      cases q with
      | setTxWatermark level | setRxWatermark level =>
        obtain ⟨-, put⟩ := Option.ite_none_left_eq_some.mp granted
        cases put
        exact ⟨_, _, rfl, by decide, level.toNat_lt, fun same => absurd same (by decide)⟩
      | setEventsEnabled | setFaultsEnabled =>
        obtain ⟨-, other⟩ := Option.ite_none_right_eq_some.mp granted
        cases other
      | _ => cases granted
    | plain q =>
      cases q with
      | softReset =>
        cases granted
        exact ⟨_, _, rfl, by decide, by decide, fun _ => rfl⟩
      | setEnable on | setOutputEnable on =>
        cases granted
        exact ⟨_, _, rfl, by decide, on.toNat_lt, fun same => absurd same (by decide)⟩
      | _ => cases granted

theorem minds {limits : Limits} {f : Field} (known : f ∈ Control.fields) {t : Turn μ} {u : Update}
    (changes : t.updateOf? limits .control = some u) : u.Minds f := by
  obtain ⟨g, v, rfl, own, small, -⟩ := put_of_control changes
  exact Control.minds known own small

theorem eq_zero_of_reset {limits : Limits} {t : Turn μ} {v : Nat}
    (puts : t.argument? limits Control.reset = some v) : v = 0 := by
  obtain ⟨u, changes, value⟩ := Option.bind_eq_some_iff.mp puts
  obtain ⟨g, n, rfl, -, -, down⟩ := put_of_control changes
  obtain ⟨own, ⟨⟩⟩ := Option.ite_none_right_eq_some.mp value
  exact down own

theorem Apart.of_fields {limits : Limits} {t u : Turn μ} {f g : Field} {v w : Nat}
    (left : t.updateOf? limits .control = some (.put f v))
    (right : u.updateOf? limits .control = some (.put g w)) (differ : g ≠ f) :
    t.Apart limits u := by
  obtain ⟨_, _, ⟨⟩, known, -⟩ := put_of_control left
  obtain ⟨_, _, ⟨⟩, own, -⟩ := put_of_control right
  have clear := f.mask_and_mask g (Control.fits known) (Control.fits own)
    (Control.apart known own differ)
  intro s
  cases s with
  | control =>
    rw [bits, bits, left, right]
    exact clear
  | _ =>
    rw [bits, updateOf?, update?_of_updateOf? left]
    exact BitVec.zero_and

theorem Apart.change_comm {limits : Limits} {t u : Turn μ} (apart : t.Apart limits u)
    {c d : Switch × Update} (left : t.update? limits = some c) (right : u.update? limits = some d)
    (ws : Switch → Word) :
    Switch.change (Switch.change ws c) d = Switch.change (Switch.change ws d) c := by
  refine Switch.change_comm (fun same => ?_) ws
  have clear := apart c.1
  rw [bits, bits, updateOf?_of_update? left, same, updateOf?_of_update? right] at clear
  exact clear

theorem Reordered.foldl_change {limits : Limits} {ts us : List (Turn μ)}
    (order : Reordered limits ts us) (ws : Switch → Word) :
    (us.filterMap (update? limits)).foldl Switch.change ws =
      (ts.filterMap (update? limits)).foldl Switch.change ws := by
  induction order with
  | refl ts => rfl
  | trans _ _ first second => exact second.trans first
  | @swap front back t u apart =>
    simp only [List.filterMap_append, List.foldl_append, List.filterMap_cons]
    cases left : t.update? limits with
    | none => rfl
    | some c =>
      cases right : u.update? limits with
      | none => rfl
      | some d =>
        rw [List.foldl_cons, List.foldl_cons, List.foldl_cons, List.foldl_cons,
          apart.change_comm left right]

end Turn

variable {β μ : Type} [RegisterBlock β] {env : μ → β → β} {sound : β → Prop} {limits : Limits}
  {ws : Switch → Word} {h : Host β}

/-- A driver under these limits, with a sound block that shows these words. -/
structure Shows (sound : β → Prop) (limits : Limits) (ws : Switch → Word) (h : Host β) : Prop where
  intact : sound h.block
  limits : h.limits = limits
  words : shown h.block = ws

namespace Shows

variable (storing : Storing env sound) (shows : Shows sound limits ws h)
include storing shows

theorem read (r : Register) : Shows sound limits ws (h.read r).2 := by
  obtain ⟨intact, same⟩ := storing.read r h.block shows.intact
  exact ⟨intact, shows.limits, same.trans shows.words⟩

theorem write (r : Register) (w : Word) (other : ∀ s : Switch, s.register ≠ r) :
    Shows sound limits ws (h.write r w) := by
  obtain ⟨intact, same⟩ := storing.write r w h.block other shows.intact
  exact ⟨intact, shows.limits, same.trans shows.words⟩

theorem store (s : Switch) (w : Word) :
    Shows sound limits (Function.update ws s w) (h.write s.register w) := by
  obtain ⟨intact, stored⟩ := storing.store s w h.block shows.intact
  refine ⟨intact, shows.limits, stored.trans ?_⟩
  rw [shows.words]

theorem modify (s : Switch) (u : Update) :
    Shows sound limits (Switch.change ws (s, u)) (h.modify s.register fun w => u.apply w) := by
  have now : (h.read s.register).1 = ws s := congrFun shows.words s
  rw [Switch.change, ← now]
  exact (shows.read storing s.register).store storing s _

theorem queueWord (w : Word) : Shows sound limits ws (h.queueWord w).2 := by
  have looked := shows.read storing .status
  rcases h.queueWord_cases w with ⟨err, -, refused⟩ | taken
  · rw [refused]
    exact looked
  · rw [taken]
    exact looked.write storing .command w fun s => by cases s <;> decide

theorem checked (q : Checked) :
    Shows sound limits ((q.update? limits).elim ws (Switch.change ws)) (q.perform h).2 := by
  have depths := shows.limits
  subst depths
  -- four of the requests change such a word; the others read, or write to another register
  cases q with
  | setEventsEnabled events on =>
    simp only [Checked.perform, Checked.update?, setEventsEnabled]
    split
    · exact shows.modify storing .eventEnable (.switch events.bits on)
    · exact shows
  | setFaultsEnabled faults on =>
    simp only [Checked.perform, Checked.update?, setFaultsEnabled]
    split
    · exact shows.modify storing .errorEnable (.switch faults.bits on)
    · exact shows
  | setTxWatermark level =>
    simp only [Checked.perform, Checked.update?, setTxWatermark]
    split
    · exact shows
    · exact shows.modify storing .control (.put Control.txWatermark level.toNat)
  | setRxWatermark level =>
    simp only [Checked.perform, Checked.update?, setRxWatermark]
    split
    · exact shows
    · exact shows.modify storing .control (.put Control.rxWatermark level.toNat)
  | setCsid csid | setChipOptions csid o =>
    simp only [Checked.perform, setCsid, setChipOptions]
    split
    · exact shows
    · exact shows.write storing _ _ fun s => by cases s <;> simp [Switch.register]
  | chipOptions csid =>
    simp only [Checked.perform, Host.chipOptions]
    split
    · exact shows
    · exact shows.read storing _
  | setCommand c =>
    simp only [Checked.perform, setCommand]
    split
    · exact shows
    · exact shows.queueWord storing c.toWord
  | setCommandWord w =>
    simp only [Checked.perform, setCommandWord]
    split
    · exact shows.queueWord storing w
    · exact shows
  | writeWord w =>
    simp only [Checked.perform, writeWord]
    have looked := shows.read storing .status
    split
    · exact looked
    · exact looked.write storing .txData w fun s => by cases s <;> decide
  | writeByte b =>
    simp only [Checked.perform, writeByte]
    have looked := shows.read storing .status
    split
    · exact looked
    · obtain ⟨intact, same⟩ := storing.push b _ looked.intact
      exact ⟨intact, looked.limits, same.trans looked.words⟩
  | readWord =>
    simp only [Checked.perform, readWord]
    have looked := shows.read storing .status
    split
    · exact looked
    · exact looked.read storing .rxData

theorem plain (q : Plain) :
    Shows sound limits (q.update?.elim ws (Switch.change ws)) (q.perform h) := by
  cases q with
  | disableEvents =>
    have cleared : Switch.change ws (.eventEnable, .switch (BitVec.allOnes 32) false) =
        Function.update ws .eventEnable 0 := by
      simp [Switch.change, Update.apply]
    rw [Plain.update?, Option.elim_some, cleared]
    exact shows.store storing .eventEnable 0
  | softReset =>
    have lowered := (shows.modify storing .control (.put Control.reset 1)).modify storing .control
      (.put Control.reset 0)
    rwa [Switch.change_put_put _ _ (by decide)] at lowered
  | setEnable on => exact shows.modify storing .control (.put Control.enable on.toNat)
  | setOutputEnable on => exact shows.modify storing .control (.put Control.outputEnable on.toNat)
  | setEventIntr on => exact shows.modify storing .intrEnable (.put Intr.event on.toNat)
  | setErrorIntr on => exact shows.modify storing .intrEnable (.put Intr.error on.toNat)
  | acknowledgeFaults | testErrorIntr | testEventIntr | testFatalAlert | acknowledgeIntr =>
    exact shows.write storing _ _ fun s => by cases s <;> decide
  | intrPending => exact (shows.read storing .intrState).read storing .intrEnable
  | pendingEvents => exact (shows.read storing .status).read storing .eventEnable
  | _ => exact shows.read storing _

theorem turn (t : Turn μ) :
    Shows sound limits ((t.update? limits).elim ws (Switch.change ws)) (turn env h t) := by
  cases t with
  | move m =>
    obtain ⟨intact, same⟩ := storing.move m h.block shows.intact
    exact ⟨intact, shows.limits, same.trans shows.words⟩
  | call o =>
    cases o with
    | checked q => exact shows.checked storing q
    | plain q => exact shows.plain storing q

theorem turns (ts : List (Turn μ)) :
    Shows sound limits ((ts.filterMap (Turn.update? limits)).foldl Switch.change ws)
      (turns env h ts) := by
  induction ts generalizing h ws with
  | nil => exact shows
  | cons t rest ih =>
    have next := ih (shows.turn storing t)
    rw [List.filterMap_cons]
    cases changes : t.update? limits with
    | none => rwa [changes] at next
    | some c => rwa [changes] at next

end Shows

theorem granted_iff (h : Host β) (q : Checked) (s : Switch) (about : q.target = s.register) :
    (q.perform h).1 = .ok () ↔ (q.update? h.limits).isSome = true := by
  cases q with
  | setEventsEnabled | setFaultsEnabled =>
    simp only [Checked.perform, setEventsEnabled, setFaultsEnabled, Checked.update?]
    split <;> simp
  | setTxWatermark | setRxWatermark =>
    simp only [Checked.perform, setTxWatermark, setRxWatermark, Checked.update?]
    split <;> simp
  | _ => cases s <;> cases about

/-- The registers that the driver changes in part hold what it was last asked for, on any block that
    holds what is written to them, whatever they held before and however the turns follow one
    another. At any time the limits of the block alone grant or refuse a request that changes one of
    them. Each field of the control word has the value of the last granted request for it, or what
    it had; the reset bit is down after any reset. Each register is what the granted changes make of
    its word in their order, and a bit that none of them addresses stays. Turns that address
    different bits may change places. -/
theorem switches_follow_grants (storing : Storing env sound) (h : Host β) (intact : sound h.block)
    (ts : List (Turn μ)) :
    let old := shown h.block
    let now := shown (turns env h ts).block
    (∀ (q : Checked) (s : Switch), q.target = s.register →
      ((q.perform (turns env h ts)).1 = .ok () ↔ (q.update? h.limits).isSome = true)) ∧
    (∀ f ∈ Control.fields, f.get (now .control) =
      (ts.filterMap (Turn.argument? h.limits f)).getLastD (f.get (old .control))) ∧
    (.call (.plain .softReset) ∈ ts → Control.reset.get (now .control) = 0) ∧
    (∀ s, now s = (ts.filterMap (Turn.updateOf? h.limits s)).foldl Update.apply (old s)) ∧
    (∀ s i, (∀ t ∈ ts, (t.bits h.limits s).getLsbD i = false) →
      (now s).getLsbD i = (old s).getLsbD i) ∧
    ∀ us, Turn.Reordered h.limits ts us → shown (turns env h us).block = now := by
  intro old now
  have start : Shows sound h.limits old h := ⟨intact, rfl, rfl⟩
  have ends := start.turns storing ts
  have each (s : Switch) :
      now s = (ts.filterMap (Turn.updateOf? h.limits s)).foldl Update.apply (old s) := by
    rw [← Turn.filterMap_updateOf?, ← Switch.foldl_change]
    exact congrFun ends.words s
  have holds (f : Field) (known : f ∈ Control.fields) : f.get (now .control) =
      (ts.filterMap (Turn.argument? h.limits f)).getLastD (f.get (old .control)) := by
    rw [each, Update.get_foldl (Control.fits known), List.filterMap_filterMap]
    · rfl
    · intro u changes
      obtain ⟨t, -, changes⟩ := List.mem_filterMap.mp changes
      exact Turn.minds known changes
  refine ⟨?_, holds, ?_, each, ?_, ?_⟩
  · intro q s about
    rw [granted_iff _ q s about, ends.limits]
  · intro reset
    have asked : ts.filterMap (Turn.argument? h.limits Control.reset) ≠ [] :=
      List.ne_nil_of_mem (List.mem_filterMap.mpr ⟨_, reset, rfl⟩)
    rw [holds _ (by decide), List.getLastD_eq_getLast?, List.getLast?_eq_some_getLast asked]
    obtain ⟨t, -, puts⟩ := List.mem_filterMap.mp (List.getLast_mem asked)
    exact Turn.eq_zero_of_reset puts
  · intro s i spared
    rw [each, Update.getLsbD_foldl]
    intro u changes
    obtain ⟨t, member, changes⟩ := List.mem_filterMap.mp changes
    have clear := spared t member
    rwa [Turn.bits, changes] at clear
  · intro us order
    rw [(start.turns storing us).words, order.foldl_change]
    exact ends.words.symm

theorem switches_follow_grants_refused :
    let h : Host Simulator := ⟨{ Simulator.fresh {} with control := 0x5fedcba9 }, {}⟩
    let m : Host MemoryBlock := ⟨.ofWords [0, 2, 0, 0, 0x5fedcba9], {}⟩
    let before : List (Turn Simulator.Move) :=
      [.call (.checked (.setTxWatermark 4)), .move .tick, .call (.plain (.setErrorIntr true))]
    let reset : Turn Simulator.Move := .call (.plain .softReset)
    let enable : Turn Simulator.Move := .call (.plain (.setEnable true))
    let after : List (Turn Simulator.Move) :=
      [.call (.checked (.setTxWatermark 200)), .call (.checked (.setEventsEnabled ⟨0x14⟩ true)),
        .call (.checked (.setFaultsEnabled ⟨0x20⟩ true)), .call (.checked (.setCsid 1))]
    let now := shown (turns Simulator.apply h (before ++ reset :: enable :: after)).block
    now .control = 0x9fed04a9 ∧ now .intrEnable = 1 ∧ now .errorEnable = 0 ∧
      now .eventEnable = 0x14 ∧
      shown (turns Simulator.apply h (before ++ enable :: reset :: after)).block = now ∧
      shown (turns (fun (_ : Empty) m => m) m
        [.call (.plain (.setEventIntr false)), .call (.plain .disableEvents)]).block .control =
          0x5fedcba9 := by
  intro h m before reset enable after now
  obtain ⟨-, -, -, each, -, order⟩ :=
    switches_follow_grants Simulator.storing h trivial (before ++ reset :: enable :: after)
  obtain ⟨-, -, -, held, -⟩ := switches_follow_grants MemoryBlock.storing m rfl
    [.call (.plain (.setEventIntr false)), .call (.plain .disableEvents)]
  have apart : reset.Apart h.limits enable := .of_fields rfl rfl (by decide)
  refine ⟨(each .control).trans ?_, (each .intrEnable).trans ?_, (each .errorEnable).trans ?_,
    (each .eventEnable).trans ?_, order _ (.swap before after apart), (held .control).trans ?_⟩ <;>
    decide

end Host

end SerialBus
