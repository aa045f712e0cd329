import SerialBus.Proofs.Host.Noted
import SerialBus.Proofs.Host.Operations

namespace SerialBus

namespace Access

def register : Access → Register
  | read r | write r _ | writeByte r _ => r

/-- The access may change the block. A read does so where it takes a word out of a queue. -/
def hasEffect : Access → Bool
  | read r => r = .rxData
  | write .. | writeByte .. => true

/-- The access goes to no option register, and chooses no line, that the register map lacks. -/
def Mapped : Access → Prop
  | read (.configOpts line) | write (.configOpts line) _ | writeByte (.configOpts line) _ =>
    line < Register.optionLines
  | write .csid w => w.toNat < Register.optionLines
  | writeByte .csid b => b.toNat < Register.optionLines
  | _ => True

end Access

namespace Host

namespace Checked

def target : Checked → Register
  | setEventsEnabled .. => .eventEnable
  | setFaultsEnabled .. => .errorEnable
  | setTxWatermark _ | setRxWatermark _ => .control
  | setCsid _ => .csid
  | chipOptions csid | setChipOptions csid _ => .configOpts csid.toNat
  | setCommand _ | setCommandWord _ => .command
  | writeWord _ | writeByte _ => .txData
  | readWord => .rxData

def looks : Checked → List Access
  | setEventsEnabled .. => [.read .eventEnable]
  | setFaultsEnabled .. => [.read .errorEnable]
  | setTxWatermark _ | setRxWatermark _ => [.read .control]
  | setCsid _ | setChipOptions .. => []
  | chipOptions csid => [.read (.configOpts csid.toNat)]
  | setCommand _ | setCommandWord _ | writeWord _ | writeByte _ | readWord => [.read .status]

def effects (w : Word) : Checked → List Access
  | setEventsEnabled events on =>
    [.write .eventEnable (if on then w ||| events.bits else w &&& ~~~events.bits)]
  | setFaultsEnabled faults on =>
    [.write .errorEnable (if on then w ||| faults.bits else w &&& ~~~faults.bits)]
  | setTxWatermark level => [.write .control (Control.txWatermark.put level.toNat w)]
  | setRxWatermark level => [.write .control (Control.rxWatermark.put level.toNat w)]
  | setCsid csid => [.write .csid csid]
  | chipOptions _ => []
  | setChipOptions csid o => [.write (.configOpts csid.toNat) o.toWord]
  | setCommand c => [.write .command c.toWord]
  | setCommandWord w => [.write .command w]
  | writeWord w => [.write .txData w]
  | writeByte b => [.writeByte .txData b]
  | readWord => [.read .rxData]

def line? : Checked → Option Word
  | setCsid csid | chipOptions csid | setChipOptions csid _ => some csid
  | _ => none

def inquires : Checked → Bool
  | chipOptions _ => true
  | _ => false

theorem hasEffect_looks (q : Checked) : q.looks.filter Access.hasEffect = [] := by
  cases q <;> rfl

theorem hasEffect_effects (q : Checked) (w : Word) :
    (q.effects w).filter Access.hasEffect = q.effects w := by
  cases q <;> rfl

theorem register_effects (q : Checked) (w : Word) :
    (q.effects w).map Access.register = if q.inquires then [] else [q.target] := by
  cases q <;> rfl

theorem mapped (q : Checked) (w : Word)
    (inside : ∀ csid, q.line? = some csid → csid.toNat < Register.optionLines) :
    ∀ a ∈ q.looks ++ q.effects w, a.Mapped := by
  cases q with
  | setCsid csid | chipOptions csid | setChipOptions csid o =>
    simpa [looks, effects, Access.Mapped] using inside csid rfl
  | _ => simp [looks, effects, Access.Mapped]

end Checked

variable {β : Type} [RegisterBlock β]

/-- The answer to the request `q` on `h`, and the block with what was done to it. -/
inductive Answered (q : Checked) (h : Host (Noted some β)) :
    Except HostError Unit × Host (Noted some β) → Prop
  | refused (err : HostError) (g : Host (Noted some β)) (seen : List Access)
    (done : g.block.notes = h.block.notes ++ seen) (looked : seen = [] ∨ seen = [.read .status]) :
    Answered q h (.error err, g)
  | granted (g : Host (Noted some β))
    (done : g.block.notes = h.block.notes ++ (q.looks ++
      q.effects (RegisterBlock.read q.target h.block.block).1))
    (inside : ∀ csid, q.line? = some csid → csid.toNat < Register.optionLines) :
    Answered q h (.ok (), g)

variable (h : Host (Noted some β))

theorem notes_read (r : Register) :
    (h.read r).2.block.notes = h.block.notes ++ [.read r] := rfl

theorem notes_write (r : Register) (w : Word) :
    (h.write r w).block.notes = h.block.notes ++ [.write r w] := rfl

theorem notes_modify (r : Register) (f : Word → Word) :
    (h.modify r f).block.notes = h.block.notes ++
      ([.read r] ++ [.write r (f (RegisterBlock.read r h.block.block).1)]) :=
  List.append_assoc ..

theorem answered_queueWord (w : Word) (q : Checked) (looks : q.looks = [.read .status])
    (effects : ∀ now, q.effects now = [.write .command w]) (unnamed : q.line? = none) :
    Answered q h (h.queueWord w) := by
  rcases h.queueWord_cases w with ⟨err, -, refused⟩ | taken
  · rw [refused]
    exact .refused err _ _ (h.notes_read .status) (.inr rfl)
  · rw [taken]
    refine .granted _ ?_ fun csid named => ?_
    · rw [notes_write, looks, effects, ← List.append_assoc]
      rfl
    · rw [unnamed] at named
      cases named

omit [RegisterBlock β] in
theorem inside_of_lines {csid : Word} (inside : ¬ h.lines ≤ csid.toNat) (other : Word)
    (named : some csid = some other) : other.toNat < Register.optionLines := by
  cases named
  exact h.mapped_of_lines inside

theorem answered (q : Checked) : Answered q h (q.perform h) := by
  have untouched : h.block.notes = h.block.notes ++ [] := (List.append_nil _).symm
  have unnamed : ∀ csid : Word, none = some csid → csid.toNat < Register.optionLines := by
    rintro _ ⟨⟩
  cases q with
  | setEventsEnabled | setFaultsEnabled =>
    simp only [Checked.perform, setEventsEnabled, setFaultsEnabled]
    split
    · exact .granted _ (h.notes_modify _ _) unnamed
    · exact .refused _ h [] untouched (.inl rfl)
  | setTxWatermark | setRxWatermark =>
    simp only [Checked.perform, setTxWatermark, setRxWatermark]
    split
    · exact .refused _ h [] untouched (.inl rfl)
    · exact .granted _ (h.notes_modify .control _) unnamed
  | setCsid | chipOptions | setChipOptions =>
    simp only [Checked.perform, setCsid, chipOptions, setChipOptions]
    split
    · exact .refused _ h [] untouched (.inl rfl)
    · rename_i inside
      exact .granted _ rfl (h.inside_of_lines inside)
  | setCommand c =>
    simp only [Checked.perform, setCommand]
    split
    · exact .refused _ h [] untouched (.inl rfl)
    · exact h.answered_queueWord c.toWord (.setCommand c) rfl (fun _ => rfl) rfl
  | setCommandWord w =>
    simp only [Checked.perform, setCommandWord]
    split
    · exact h.answered_queueWord w (.setCommandWord w) rfl (fun _ => rfl) rfl
    · exact .refused _ h [] untouched (.inl rfl)
  | writeWord | writeByte | readWord =>
    simp only [Checked.perform, writeWord, writeByte, readWord]
    split
    · exact .refused _ _ _ (h.notes_read .status) (.inr rfl)
    · exact .granted _ (List.append_assoc ..) unnamed

/-- A request that is refused has changed nothing: at most the status was read. A request that is
    granted made exactly one access with an effect, to the register that it is about; only the one
    for the options of a line has none, and it read these options. Whatever line was named, no
    access went to options or to a line that the register map does not have. This holds in every
    state of every block, and under any limits. -/
theorem requests_take_effect_once (h : Host (Noted some β)) (q : Checked) :
    let now := (RegisterBlock.read q.target h.block.block).1
    ∃ done, (q.perform h).2.block.notes = h.block.notes ++ done ∧ (∀ a ∈ done, a.Mapped) ∧
      ((∃ err, (q.perform h).1 = .error err ∧ (done = [] ∨ done = [.read .status]) ∧
          done.filter Access.hasEffect = []) ∨
        (q.perform h).1 = .ok () ∧ done = q.looks ++ q.effects now ∧
          done.filter Access.hasEffect = q.effects now ∧
          (q.effects now).map Access.register = if q.inquires then [] else [q.target]) := by
  intro now
  have answer := h.answered q
  generalize q.perform h = result at answer
  cases answer with
  | refused err g seen done looked =>
    refine ⟨seen, done, ?_, .inl ⟨err, rfl, looked, ?_⟩⟩ <;> rcases looked with rfl | rfl
    · exact List.forall_mem_nil _
    · simp [Access.Mapped]
    · rfl
    · rfl
  | granted g done inside =>
    refine ⟨_, done, q.mapped now inside, .inr ⟨rfl, rfl, ?_, q.register_effects now⟩⟩
    rw [List.filter_append, q.hasEffect_looks, q.hasEffect_effects, List.nil_append]

end Host

end SerialBus
