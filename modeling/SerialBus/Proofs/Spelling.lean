import SerialBus.Proofs.Simulator.Driver

namespace SerialBus

namespace Command

theorem validate_of_fitting (c : Command) (least : 1 ≤ c.len.toNat)
    (most : c.len.toNat ≤ 2 ^ 24 - 1) :
    c.validate = if c.direction.allows c.speed then .ok () else .error .speedInvalid := by
  have some : c.len ≠ 0 := by
    rintro zero
    rw [zero] at least
    cases least
  have short : ¬ Segment.maxLen < c.len := UInt32.not_lt.mpr (UInt32.le_iff_toNat_le.mpr most)
  rw [validate, if_neg (not_or.mpr ⟨some, short⟩)]
  cases c.direction.allows c.speed <;> rfl

theorem validate_of_long (c : Command) (long : 2 ^ 24 - 1 < c.len.toNat) :
    c.validate = .error .lengthInvalid :=
  if_pos (.inr (UInt32.lt_iff_toNat_lt.mpr long))

theorem len_of_valid (c : Command) (valid : c.validate = .ok ()) :
    1 ≤ c.len.toNat ∧ c.len.toNat ≤ 2 ^ 24 - 1 := by
  unfold validate at valid
  split at valid
  · cases valid
  · rename_i lengths
    obtain ⟨some, short⟩ := not_or.mp lengths
    refine ⟨Nat.pos_of_ne_zero fun zero => some (UInt32.toNat_inj.mp zero), ?_⟩
    exact UInt32.le_iff_toNat_le.mp (UInt32.not_lt.mp short)

end Command

namespace Simulator

/-- The blocks are the same, but for a last write of a command that was made with `v` in the first
    and with `w` in the second, and for these words in the command if it was queued. -/
inductive Respelled (v w : Word) : Simulator → Simulator → Prop
  | unwritten (s : Simulator) : Respelled v w s s
  | faulted (s : Simulator) :
    Respelled v w { s with writes := s.writes ++ [(.command, v)] }
      { s with writes := s.writes ++ [(.command, w)] }
  | queued (s : Simulator) (e : Entry) :
    Respelled v w
      { s with
        writes := s.writes ++ [(.command, v)]
        accepted := s.accepted ++ [{ e with raw := v }]
        queue := s.queue ++ [{ e with raw := v }] }
      { s with
        writes := s.writes ++ [(.command, w)]
        accepted := s.accepted ++ [{ e with raw := w }]
        queue := s.queue ++ [{ e with raw := w }] }

variable {c : Command} {v w : Word}

theorem respelled_write (s : Simulator) (first : c.Spelled v) (second : c.Spelled w) :
    Respelled v w (RegisterBlock.write .command v s) (RegisterBlock.write .command w s) := by
  change Respelled v w (pushCommand _ v) (pushCommand _ w)
  -- a command is judged by its fields and by the queue, and these are the same for both words
  simp only [pushCommand, decode_of_spelled _ c v first, decode_of_spelled _ c w second,
    Command.entry]
  split
  · exact .faulted (s.raise _)
  · split
    · exact .faulted (s.raise _)
    · split
      · exact .faulted (s.raise _)
      · exact .queued s (c.entry s.csid v)

end Simulator

namespace Host

variable {β : Type} [RegisterBlock β] {c : Command} {v w : Word}

theorem setCommandWord_of_reserved (h : Host β) (reserved : Command.speedField.get w = 3) :
    h.setCommandWord w = (.error .speedInvalid, h) := by
  rw [setCommandWord, reserved]
  rfl

theorem setCommandWord_of_spelled (h : Host β) (spelled : c.Spelled w) :
    h.setCommandWord w =
      if c.direction.allows c.speed then h.queueWord w else (.error .speedInvalid, h) := by
  rw [setCommandWord, spelled.direction, spelled.speed, Command.codesAllowed_code]

theorem setCommand_of_fitting (h : Host β) (least : 1 ≤ c.len.toNat)
    (most : c.len.toNat ≤ 2 ^ 24 - 1) :
    h.setCommand c =
      if c.direction.allows c.speed then h.queueWord c.toWord else (.error .speedInvalid, h) := by
  rw [setCommand, c.validate_of_fitting least most]
  cases c.direction.allows c.speed <;> rfl

theorem answer_queueWord (h : Host β) (w : Word) : (h.queueWord w).1 = h.checkQueue.1 := by
  unfold queueWord
  split <;> rename_i checked <;> rw [checked]

theorem answer_setCommandWord (h : Host β) (spelled : c.Spelled w)
    (most : c.len.toNat ≤ 2 ^ 24 - 1) : (h.setCommandWord w).1 = (h.setCommand c).1 := by
  rw [h.setCommandWord_of_spelled spelled, h.setCommand_of_fitting spelled.len_bounds.1 most]
  split
  · rw [answer_queueWord, answer_queueWord]
  · rfl

theorem respelled_queueWord (h : Host Simulator) (first : c.Spelled v) (second : c.Spelled w) :
    ∃ result s t, h.queueWord v = (result, { h with block := s }) ∧
      h.queueWord w = (result, { h with block := t }) ∧ Simulator.Respelled v w s t := by
  unfold queueWord
  rcases h.checkQueue_cases with ⟨err, -, refused, -⟩ | ⟨taken, -⟩
  · rw [refused]
    exact ⟨_, _, _, rfl, rfl, .unwritten h.block⟩
  · rw [taken]
    exact ⟨_, _, _, rfl, rfl, h.block.respelled_write first second⟩

theorem respelled_setCommandWord (h : Host Simulator) (spelled : c.Spelled w)
    (most : c.len.toNat ≤ 2 ^ 24 - 1) :
    ∃ result s t, h.setCommandWord w = (result, { h with block := s }) ∧
      h.setCommand c = (result, { h with block := t }) ∧ Simulator.Respelled w c.toWord s t := by
  obtain ⟨least, bound⟩ := spelled.len_bounds
  rw [h.setCommandWord_of_spelled spelled, h.setCommand_of_fitting least most]
  split
  · exact h.respelled_queueWord spelled (c.spelled_toWord least bound)
  · exact ⟨_, _, _, rfl, rfl, .unwritten h.block⟩

/-- A word with the reserved speed is refused, and read as no command. Any other word is read as a
    command that is written again with the spare bits down; if the command may have its length,
    word and command are answered alike on every block, and leave a running block the same but for
    the word on record. The one length that only a word can have is refused of the command. A
    command that can be asked for is read back from its word. -/
theorem word_and_command_agree :
    (∀ (β : Type) [RegisterBlock β] (h : Host β) (w : Word),
      (Command.speedField.get w = 3 →
        h.setCommandWord w = (.error .speedInvalid, h) ∧ Command.ofWord? w = none) ∧
      (Command.speedField.get w ≠ 3 → ∃ c, Command.ofWord? w = some c ∧
        c.toWord = Command.spareField.put 0 w ∧
        (c.len.toNat ≤ 2 ^ 24 - 1 → (h.setCommandWord w).1 = (h.setCommand c).1) ∧
        (2 ^ 24 - 1 < c.len.toNat →
          c.len.toNat = 2 ^ 24 ∧ h.setCommand c = (.error .lengthInvalid, h)))) ∧
      (∀ (h : Host Simulator) (w : Word) (c : Command), Command.ofWord? w = some c →
        c.len.toNat ≤ 2 ^ 24 - 1 →
          ∃ result s t, h.setCommandWord w = (result, { h with block := s }) ∧
            h.setCommand c = (result, { h with block := t }) ∧
            Simulator.Respelled w c.toWord s t) ∧
      ∀ c : Command, c.validate = .ok () → Command.ofWord? c.toWord = some c := by
  refine ⟨fun β _ h w => ⟨fun reserved => ?_, fun meant => ?_⟩, fun h w c read most => ?_,
    fun c valid => ?_⟩
  · exact ⟨h.setCommandWord_of_reserved reserved, Command.ofWord?_eq_none w reserved⟩
  · obtain ⟨c, spelled⟩ := Command.exists_spelled w meant
    refine ⟨c, (Command.ofWord?_eq_some_iff w c).mpr spelled, spelled.toWord_eq,
      h.answer_setCommandWord spelled, fun long => ⟨?_, ?_⟩⟩
    · have most := spelled.len_bounds.2
      omega
    · rw [setCommand, c.validate_of_long long]
  · exact h.respelled_setCommandWord ((Command.ofWord?_eq_some_iff w c).mp read) most
  · obtain ⟨least, most⟩ := c.len_of_valid valid
    exact (Command.ofWord?_eq_some_iff _ c).mpr
      (c.spelled_toWord least (Nat.le_trans most (Nat.sub_le _ _)))

theorem word_and_command_agree_spare :
    let h : Host Simulator := ⟨.fresh {}, {}⟩
    let w : Word := 0xf50000ff
    let c : Command := ⟨.txOnly, .quad, 256, true⟩
    let long : Command := ⟨.dummy, .standard, 0x1000000, false⟩
    c.validate = .ok () ∧ Command.ofWord? c.toWord = some c ∧
      Command.ofWord? w = some c ∧ c.toWord = Command.spareField.put 0 w ∧
      (h.setCommandWord w).1 = .ok () ∧
      (∃ s t, h.setCommandWord w = (.ok (), { h with block := s }) ∧
        h.setCommand c = (.ok (), { h with block := t }) ∧
        Simulator.Respelled w c.toWord s t) ∧
      h.setCommandWord 0x06000000 = (.error .speedInvalid, h) ∧
      Command.ofWord? 0x00ffffff = some long ∧ h.setCommand long = (.error .lengthInvalid, h) := by
  intro h w c long
  obtain ⟨anywhere, running, back⟩ := word_and_command_agree
  have read : Command.ofWord? w = some c := by decide
  have valid : c.validate = .ok () := by decide
  have taken : (h.setCommandWord w).1 = .ok () := by decide
  obtain ⟨d, other, written, -, -⟩ := (anywhere Simulator h w).2 (by decide)
  obtain rfl : c = d := Option.some.inj (read.symm.trans other)
  obtain ⟨e, longest, -, -, refused⟩ := (anywhere Simulator h 0x00ffffff).2 (by decide)
  have same : Command.ofWord? 0x00ffffff = some long := by decide
  obtain rfl : long = e := Option.some.inj (same.symm.trans longest)
  obtain ⟨result, s, t, byWord, byCommand, respelled⟩ := running h w c read (by decide)
  obtain rfl : result = .ok () := by
    rw [byWord] at taken
    exact taken
  exact ⟨valid, back c valid, read, written, taken, ⟨s, t, byWord, byCommand, respelled⟩,
    ((anywhere Simulator h 0x06000000).1 (by decide)).1, same, (refused (by decide)).2⟩

end Host

end SerialBus
