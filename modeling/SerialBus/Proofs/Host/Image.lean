import SerialBus.Controller.Binding
import SerialBus.Engine.Launch
import SerialBus.Interrupt

namespace SerialBus

variable {β γ : Type} [RegisterBlock β] [RegisterBlock γ]

/-- Accesses do not tell a block from its image under `f`. -/
structure Image (f : β → γ) : Prop where
  read : ∀ (r : Register) (b : β), RegisterBlock.read r (f b) =
    Prod.map id f (RegisterBlock.read r b)
  write : ∀ (r : Register) (w : Word) (b : β), RegisterBlock.write r w (f b) =
    f (RegisterBlock.write r w b)
  patience : ∀ b : β, RegisterBlock.patience (f b) = RegisterBlock.patience b

namespace Host

omit [RegisterBlock β] [RegisterBlock γ] in
def map (f : β → γ) (h : Host β) : Host γ := ⟨f h.block, h.limits⟩

omit [RegisterBlock β] [RegisterBlock γ] in
@[simp] theorem limits_map (f : β → γ) (h : Host β) : (h.map f).limits = h.limits := rfl

variable {f : β → γ} (image : Image f) (h : Host β)
include image

theorem map_read (r : Register) : (h.map f).read r = Prod.map id (map f) (h.read r) := by
  simp only [read, map, image.read]
  rfl

theorem map_write (r : Register) (w : Word) : (h.map f).write r w = (h.write r w).map f := by
  simp only [write, map, image.write]

theorem map_modify (r : Register) (g : Word → Word) :
    (h.map f).modify r g = (h.modify r g).map f := by
  simp only [modify, map_read image, Prod.map, map_write image]
  rfl

theorem map_status : (h.map f).status = Prod.map id (map f) h.status := by
  simp only [status, map_read image]
  rfl

theorem map_checkQueue : (h.map f).checkQueue = Prod.map id (map f) h.checkQueue := by
  simp only [checkQueue, map_status image, Prod.map_fst, Prod.map_snd, id_eq, limits_map,
    apply_ite (Prod.map id (map f)), Prod.map_apply]

theorem map_setCommand (c : Command) :
    (h.map f).setCommand c = Prod.map id (map f) (h.setCommand c) := by
  simp only [setCommand, queueWord, map_checkQueue image]
  split
  · rfl
  · rcases h.checkQueue with ⟨result, g⟩
    cases result with
    | ok _ => simp only [Prod.map_apply, id_eq, map_write image]
    | error err => rfl

theorem map_writeWord (w : Word) : (h.map f).writeWord w = Prod.map id (map f) (h.writeWord w) := by
  simp only [writeWord, map_status image, Prod.map_fst, Prod.map_snd, id_eq, map_write image,
    apply_ite (Prod.map id (map f)), Prod.map_apply]

theorem map_writeWords (ws : List Word) :
    (h.map f).writeWords ws = Prod.map id (map f) (h.writeWords ws) := by
  induction ws generalizing h with
  | nil => rfl
  | cons w rest ih =>
    simp only [writeWords, map_writeWord image]
    rcases h.writeWord w with ⟨result, g⟩
    cases result with
    | ok _ => simp only [Prod.map_apply, id_eq, ih, Prod.map_fst, Prod.map_snd]
    | error err => rfl

theorem map_readWord : (h.map f).readWord = Prod.map id (map f) h.readWord := by
  simp only [readWord, map_status image, Prod.map_fst, Prod.map_snd, id_eq, map_read image,
    apply_ite (Prod.map id (map f)), Prod.map_apply]

theorem map_readWords (n : Nat) :
    (h.map f).readWords n = Prod.map id (map f) (h.readWords n) := by
  induction n generalizing h with
  | zero => rfl
  | succ n ih =>
    simp only [readWords, map_readWord image]
    rcases h.readWord with ⟨result, g⟩
    cases result with
    | ok w => simp only [Prod.map_apply, id_eq, ih, Prod.map_fst, Prod.map_snd]
    | error err => rfl

theorem map_look (c : Condition) : (h.map f).look c = Prod.map id (map f) (h.look c) := by
  simp only [look, map_status image, Prod.map_fst, Prod.map_snd, id_eq, limits_map, Prod.map_apply]

theorem patience_map : RegisterBlock.patience (h.map f).block = RegisterBlock.patience h.block :=
  image.patience h.block

theorem map_spin (c : Condition) (n : Nat) :
    (Wait.spin n).poll (look c) (h.map f) =
      Prod.map id (map f) ((Wait.spin n).poll (look c) h) := by
  unfold Wait.poll Wait.spin
  simp only
  induction n generalizing h with
  | zero =>
    unfold Wait.pollFrom
    simp only [map_look image]
    rcases h.look c with ⟨seen, g⟩
    cases seen <;> rfl
  | succ n ih =>
    unfold Wait.pollFrom
    simp only [map_look image]
    rcases h.look c with ⟨seen, g⟩
    cases seen with
    | none => exact ih g
    | some _ => rfl

theorem map_softReset : (h.map f).softReset = h.softReset.map f := by
  simp only [softReset, map_modify image]

omit [RegisterBlock β] [RegisterBlock γ] image in
theorem map_andThen (first : Except HostError Unit × Host β)
    (next : Host β → Except HostError Unit × Host β)
    (next' : Host γ → Except HostError Unit × Host γ)
    (onward : ∀ g, next' (g.map f) = Prod.map id (map f) (next g)) :
    andThen (Prod.map id (map f) first) next' = Prod.map id (map f) (andThen first next) := by
  rcases first with ⟨result, g⟩
  cases result with
  | ok _ => exact onward g
  | error err => rfl

theorem map_setFaultsEnabled (faults : Faults) (on : Bool) :
    (h.map f).setFaultsEnabled faults on = Prod.map id (map f) (h.setFaultsEnabled faults on) := by
  simp only [setFaultsEnabled, map_modify image, apply_ite (Prod.map id (map f)), Prod.map_apply,
    id_eq]

theorem map_setEventsEnabled (events : Events) (on : Bool) :
    (h.map f).setEventsEnabled events on = Prod.map id (map f) (h.setEventsEnabled events on) := by
  simp only [setEventsEnabled, map_modify image, apply_ite (Prod.map id (map f)), Prod.map_apply,
    id_eq]

theorem map_setTxWatermark (level : UInt8) :
    (h.map f).setTxWatermark level = Prod.map id (map f) (h.setTxWatermark level) := by
  simp only [setTxWatermark, limits_map, map_modify image, apply_ite (Prod.map id (map f)),
    Prod.map_apply, id_eq]

theorem map_setRxWatermark (level : UInt8) :
    (h.map f).setRxWatermark level = Prod.map id (map f) (h.setRxWatermark level) := by
  simp only [setRxWatermark, limits_map, map_modify image, apply_ite (Prod.map id (map f)),
    Prod.map_apply, id_eq]

theorem map_setErrorIntr (on : Bool) : (h.map f).setErrorIntr on = (h.setErrorIntr on).map f :=
  map_modify image h _ _

theorem map_setEventIntr (on : Bool) : (h.map f).setEventIntr on = (h.setEventIntr on).map f :=
  map_modify image h _ _

theorem map_enableHost :
    Controller.enableHost (h.map f) = Prod.map id (map f) (Controller.enableHost h) := by
  simp only [Controller.enableHost, setEnable, setOutputEnable, map_modify image,
    map_setFaultsEnabled image]
  apply map_andThen
  intro g
  simp only [map_setErrorIntr image, map_status image, Prod.map_snd, Prod.map_apply, id_eq]

theorem map_prepare (settings : Settings) :
    Engine.prepare (h.map f) settings = Prod.map id (map f) (Engine.prepare h settings) := by
  simp only [Engine.prepare, limits_map, map_setTxWatermark image]
  apply map_andThen
  intro g
  simp only [map_setRxWatermark image]
  apply map_andThen
  intro g
  exact map_setEventsEnabled image g _ _

omit [RegisterBlock β] [RegisterBlock γ] image in
@[simp] theorem lines_map : (h.map f).lines = h.lines := rfl

theorem map_chipOptions (csid : Word) :
    (h.map f).chipOptions csid = Prod.map id (map f) (h.chipOptions csid) := by
  simp only [chipOptions, lines_map, map_read image, apply_ite (Prod.map id (map f)),
    Prod.map_apply, Prod.map_fst, Prod.map_snd, id_eq]

theorem map_setChipOptions (csid : Word) (o : ChipOptions) :
    (h.map f).setChipOptions csid o = Prod.map id (map f) (h.setChipOptions csid o) := by
  simp only [setChipOptions, lines_map, map_write image, apply_ite (Prod.map id (map f)),
    Prod.map_apply, id_eq]

theorem map_setCsid (csid : Word) :
    (h.map f).setCsid csid = Prod.map id (map f) (h.setCsid csid) := by
  simp only [setCsid, lines_map, map_write image, apply_ite (Prod.map id (map f)),
    Prod.map_apply, id_eq]

theorem map_csid : (h.map f).csid = Prod.map id (map f) h.csid := map_read image h .csid

theorem map_selectSlave (slave : Slave) (divider : UInt16) :
    Engine.selectSlave (h.map f) slave divider =
      Prod.map id (map f) (Engine.selectSlave h slave divider) := by
  simp only [Engine.selectSlave, map_chipOptions image]
  rcases h.chipOptions (slave.csid.toBitVec.setWidth 32) with ⟨result, g⟩
  cases result with
  | error err => rfl
  | ok current =>
    simp only [Prod.map_apply, id_eq, map_setChipOptions image]
    rw [show ((Except.ok (), g.map f) : Except HostError Unit × Host γ) =
      Prod.map id (map f) (.ok (), g) from rfl, ← apply_ite (Prod.map id (map f))]
    apply map_andThen
    intro k
    simp only [map_csid image, Prod.map_fst, Prod.map_snd, id_eq, map_setCsid image,
      apply_ite (Prod.map id (map f)), Prod.map_apply]

theorem map_take : Interrupt.take (h.map f) = Prod.map id (map f) (Interrupt.take h) := by
  have pending : (h.map f).intrPending = Prod.map id (map f) h.intrPending := by
    simp only [intrPending, map_read image, Prod.map_fst, Prod.map_snd, id_eq, Prod.map_apply]
  have events (g : Host β) : (g.map f).pendingEvents = Prod.map id (map f) g.pendingEvents := by
    simp only [pendingEvents, eventsEnabled, map_status image, map_read image, Prod.map_fst,
      Prod.map_snd, id_eq, Prod.map_apply]
  have faults (g : Host β) : (g.map f).faults = Prod.map id (map f) g.faults := by
    simp only [Host.faults, map_read image, Prod.map_fst, Prod.map_snd, id_eq, Prod.map_apply]
  simp only [Interrupt.take, pending, Prod.map_fst, Prod.map_snd, id_eq, events]
  split <;> split <;> split <;>
    simp only [Prod.map_fst, Prod.map_snd, id_eq, faults, acknowledgeFaults, acknowledgeIntr,
      map_write image, Prod.map_apply]

end Host

end SerialBus
