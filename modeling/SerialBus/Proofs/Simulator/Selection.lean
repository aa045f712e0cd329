import SerialBus.Proofs.ChipOptions
import SerialBus.Proofs.Simulator.Switches

namespace SerialBus

def Slave.line (s : Slave) : Word := s.csid.toBitVec.setWidth 32

namespace Simulator

def choices (s : Simulator) : List (Register × Word) := s.writes.filter fun (r, _) => r.selects

def optionsFor (s : Simulator) (slave : Slave) : ChipOptions :=
  .ofWord (s.options.getD slave.line.toNat 0)

def missing (s : Simulator) (slave : Slave) (divider : UInt16) : List (Register × Word) :=
  let wanted := ChipOptions.ofSlave slave divider
  (if s.optionsFor slave = wanted then [] else [(.configOpts slave.line.toNat, wanted.toWord)]) ++
    if s.csid = slave.line then [] else [(.csid, slave.line)]

def select (s : Simulator) (slave : Slave) (divider : UInt16) : Simulator :=
  (s.missing slave divider).foldl (fun t (r, w) => writeRegister r w t) s

/-- The slave is chosen: its line, and its settings for this line. -/
structure Selected (s : Simulator) (slave : Slave) (divider : UInt16) : Prop where
  csid : s.csid = slave.line
  options : s.optionsFor slave = .ofSlave slave divider

variable {s t u : Simulator} {slave : Slave} {divider : UInt16}

theorem missing_of_selected (selected : s.Selected slave divider) :
    s.missing slave divider = [] := by
  simp only [missing, selected.options, selected.csid, if_true, List.append_nil]

theorem select_of_selected (selected : s.Selected slave divider) :
    s.select slave divider = s := by
  rw [select, missing_of_selected selected]
  rfl

theorem select_eq (s : Simulator) (slave : Slave) (divider : UInt16) :
    s.select slave divider =
      { s with
        options := if s.optionsFor slave = .ofSlave slave divider then s.options
          else s.options.set slave.line.toNat (ChipOptions.ofSlave slave divider).toWord
        csid := slave.line
        writes := s.writes ++ s.missing slave divider } := by
  by_cases held : s.optionsFor slave = .ofSlave slave divider <;>
    by_cases line : s.csid = slave.line
  · simp only [select, missing, held, line, if_true, List.append_nil, List.foldl_nil]
    rw [← line]
  · simp only [select, missing, held, line, if_true, if_false, List.nil_append, List.foldl_cons,
      List.foldl_nil, writeRegister, applyWrite]
  · simp only [select, missing, held, line, if_true, if_false, List.append_nil, List.foldl_cons,
      List.foldl_nil, writeRegister, applyWrite]
  · simp only [select, missing, held, line, if_false, List.foldl_cons, List.cons_append,
      List.nil_append, List.foldl_nil, writeRegister, applyWrite, List.append_assoc]

theorem missing_selects (s : Simulator) (slave : Slave) (divider : UInt16) :
    (s.missing slave divider).filter (fun (r, _) => r.selects) = s.missing slave divider := by
  by_cases held : s.optionsFor slave = .ofSlave slave divider <;>
    by_cases line : s.csid = slave.line <;> simp [missing, held, line, Register.selects]

theorem choices_select (s : Simulator) (slave : Slave) (divider : UInt16) :
    (s.select slave divider).choices = s.choices ++ s.missing slave divider := by
  simp only [choices, select_eq, List.filter_append, missing_selects]

theorem untouched_select (s : Simulator) (slave : Slave) (divider : UInt16) :
    Untouched s (s.select slave divider) := by
  rw [select_eq]
  exact ⟨rfl, rfl, id⟩

theorem switches_select (s : Simulator) (slave : Slave) (divider : UInt16) :
    (s.select slave divider).switches = { s.switches with csid := slave.line } := by
  rw [select_eq]
  rfl

theorem selected_select (timed : slave.Timed) (line : slave.line.toNat < s.options.length) :
    (s.select slave divider).Selected slave divider := by
  refine ⟨by rw [select_eq], ?_⟩
  by_cases held : s.optionsFor slave = .ofSlave slave divider
  · rw [select_eq, if_pos held]
    exact held
  · rw [select_eq, if_neg held, optionsFor, List.getD_eq_getElem?_getD,
      List.getElem?_set_self line, Option.getD_some]
    exact timed.ofWord_toWord divider

/-- From `s` to `t` no slave was chosen, and what was accepted carries the chip select of `s`. -/
structure Adheres (s t : Simulator) : Prop where
  build : t.build = s.build
  csid : t.csid = s.csid
  options : t.options = s.options
  choices : t.choices = s.choices
  accepted : ∃ es, t.accepted = s.accepted ++ es ∧ ∀ x ∈ es, x.csid = s.csid

theorem Adheres.refl (s : Simulator) : Adheres s s :=
  ⟨rfl, rfl, rfl, rfl, [], (List.append_nil _).symm, fun _ member => nomatch member⟩

theorem Adheres.trans (first : Adheres s t) (second : Adheres t u) : Adheres s u := by
  obtain ⟨es, early, own⟩ := first.accepted
  obtain ⟨fs, late, more⟩ := second.accepted
  refine ⟨second.build.trans first.build, second.csid.trans first.csid,
    second.options.trans first.options, second.choices.trans first.choices, es ++ fs, ?_, ?_⟩
  · rw [late, early, List.append_assoc]
  · intro x member
    rcases List.mem_append.mp member with old | new
    · exact own x old
    · exact (more x new).trans first.csid

theorem Adheres.selected (adheres : Adheres s t) (selected : s.Selected slave divider) :
    t.Selected slave divider := by
  refine ⟨adheres.csid.trans selected.csid, ?_⟩
  rw [optionsFor, adheres.options]
  exact selected.options

theorem Adheres.of_same (build : t.build = s.build) (csid : t.csid = s.csid)
    (options : t.options = s.options) (choices : t.choices = s.choices)
    (accepted : t.accepted = s.accepted) : Adheres s t :=
  ⟨build, csid, options, choices, [], by rw [accepted, List.append_nil],
    fun _ member => nomatch member⟩

theorem adheres_readRegister (r : Register) (s : Simulator) : Adheres s (readRegister r s).2 := by
  cases r with
  | rxData =>
    simp only [readRegister, popData]
    split <;> exact .of_same rfl rfl rfl rfl rfl
  | _ => exact .refl s

theorem adheres_pushCommand (s : Simulator) (w : Word) : Adheres s (s.pushCommand w) := by
  unfold pushCommand
  simp only
  split
  · exact .of_same rfl rfl rfl rfl rfl
  · split
    · exact .of_same rfl rfl rfl rfl rfl
    · split
      · exact .of_same rfl rfl rfl rfl rfl
      · exact ⟨rfl, rfl, rfl, rfl, [s.decode w], rfl, fun x member =>
          congrArg Entry.csid (List.mem_singleton.mp member)⟩

theorem adheres_writeRegister (r : Register) (w : Word) (s : Simulator)
    (other : r.selects = false) : Adheres s (writeRegister r w s) := by
  -- the write is put on record before it takes effect
  have noted : Adheres s { s with writes := s.writes ++ [(r, w)] } := by
    refine .of_same rfl rfl rfl ?_ rfl
    simp [choices, other]
  refine noted.trans ?_
  unfold writeRegister
  generalize { s with writes := s.writes ++ [(r, w)] } = s
  unfold applyWrite
  cases r with
  | configOpts | csid => cases other
  | command => exact s.adheres_pushCommand w
  | txData =>
    simp only [pushData]
    split <;> exact .of_same rfl rfl rfl rfl rfl
  | control =>
    simp only
    split <;> exact .of_same rfl rfl rfl rfl rfl
  | alertTest =>
    simp only
    split <;> exact .of_same rfl rfl rfl rfl rfl
  | _ => exact .of_same rfl rfl rfl rfl rfl

theorem adheres_step (s : Simulator) : Adheres s s.step.2 := by
  have taken : Adheres s s.takeUp := by
    unfold takeUp
    split <;> exact .of_same rfl rfl rfl rfl rfl
  unfold step
  split
  · exact .refl s
  · refine taken.trans ?_
    simp only
    split
    · exact .refl _
    · split
      · exact .of_same rfl rfl rfl rfl rfl
      · split <;> exact .of_same rfl rfl rfl rfl rfl

end Simulator

namespace Host

theorem firm_adheres (s : Simulator) : Firm fun h : Host Simulator => s.Adheres h.block where
  read r h adheres := adheres.trans (h.block.adheres_readRegister r)
  write r w h _ other adheres := adheres.trans (h.block.adheres_writeRegister r w other)
  control _ h _ adheres := adheres.trans (h.block.adheres_writeRegister .control _ rfl)
  faults h adheres := adheres.trans (h.block.adheres_writeRegister .errorEnable _ rfl)

theorem selectSlave_cases (h : Host Simulator) (slave : Slave) (divider : UInt16) :
    (∃ err, Engine.selectSlave h slave divider = (.error err, h)) ∨
      Engine.selectSlave h slave divider =
          (.ok (), { h with block := h.block.select slave divider }) ∧
        slave.line.toNat < h.lines := by
  have named : slave.csid.toBitVec.setWidth 32 = slave.line := rfl
  by_cases line : slave.line.toNat < h.lines
  · refine .inr ⟨?_, line⟩
    have inside := Nat.not_le.mpr line
    have read : h.chipOptions slave.line = (.ok (h.block.optionsFor slave), h) := by
      rw [chipOptions, if_neg inside]
      rfl
    have setOptions (o : ChipOptions) : h.setChipOptions slave.line o =
        (.ok (), h.write (.configOpts slave.line.toNat) o.toWord) := by
      rw [setChipOptions, if_neg inside]
    have setLine (g : Host Simulator) (same : g.lines = h.lines) :
        g.setCsid slave.line = (.ok (), g.write .csid slave.line) := by
      rw [setCsid, same, if_neg inside]
    have current (g : Host Simulator) : g.csid = (g.block.csid, g) := rfl
    simp only [Engine.selectSlave, named, read, current]
    by_cases held : h.block.optionsFor slave = .ofSlave slave divider <;>
      by_cases now : h.block.csid = slave.line
    · simp only [held, now, if_true, andThen, Simulator.select, Simulator.missing]
      rfl
    · simp only [held, now, if_true, if_false, andThen, setLine h rfl, Simulator.select,
        Simulator.missing]
      rfl
    · have kept : (h.write (.configOpts slave.line.toNat)
          (ChipOptions.ofSlave slave divider).toWord).block.csid = slave.line := now
      simp only [held, now, if_true, if_false, setOptions, andThen, kept, Simulator.select,
        Simulator.missing]
      rfl
    · have kept : (h.write (.configOpts slave.line.toNat)
          (ChipOptions.ofSlave slave divider).toWord).block.csid ≠ slave.line := now
      simp only [held, now, if_false, setOptions, andThen, kept, setLine (h.write _ _) rfl,
        Simulator.select, Simulator.missing]
      rfl
  · refine .inl ⟨.csidInvalid, ?_⟩
    have outside := Nat.not_lt.mp line
    simp only [Engine.selectSlave, named, chipOptions, if_pos outside]

end Host

end SerialBus
