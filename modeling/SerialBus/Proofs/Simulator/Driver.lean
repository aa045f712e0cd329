import SerialBus.Engine.Launch
import SerialBus.Interrupt
import SerialBus.Proofs.CommandWord
import SerialBus.Proofs.Simulator.Condition
import SerialBus.Proofs.Simulator.Traffic
import SerialBus.Simulator.Access

namespace SerialBus

def Segment.entry (s : Segment) (csid : Word) (csaat : Bool) : Simulator.Entry where
  raw := (Command.ofSegment s csaat).toWord
  csid := csid
  len := s.len.toNat
  csaat := csaat
  speed := s.speed.code
  direction := s.direction.code

theorem Segment.valid_parts (g : Segment) (valid : g.validate = .ok ()) :
    g.direction.allows g.speed = true ∧ g.len ≠ 0 ∧ g.len ≤ Segment.maxLen := by
  unfold Segment.validate Segment.validateAt at valid
  split at valid
  · cases valid
  · rename_i allowed
    split at valid
    · cases valid
    · rename_i lengths
      simp only [not_or, UInt32.not_lt] at lengths
      exact ⟨by simpa using allowed, lengths⟩

theorem Segment.len_bounds (g : Segment) (valid : g.validate = .ok ()) :
    0 < g.len.toNat ∧ g.len.toNat ≤ 16777215 := by
  obtain ⟨-, nonzero, bound⟩ := g.valid_parts valid
  refine ⟨?_, UInt32.le_iff_toNat_le.mp bound⟩
  exact Nat.pos_of_ne_zero fun zero => nonzero (UInt32.toNat_inj.mp zero)

def Command.entry (c : Command) (csid raw : Word) : Simulator.Entry where
  raw := raw
  csid := csid
  len := c.len.toNat
  csaat := c.csaat
  speed := c.speed.code
  direction := c.direction.code

namespace Simulator

theorem decode_of_spelled (s : Simulator) (c : Command) (w : Word) (spelled : c.Spelled w) :
    s.decode w = c.entry s.csid w := by
  simp only [decode, Command.entry, spelled.len, spelled.csaat, spelled.speed, spelled.direction]

theorem decode_ofSegment (s : Simulator) (g : Segment) (csaat : Bool)
    (valid : g.validate = .ok ()) :
    s.decode (Command.ofSegment g csaat).toWord = g.entry s.csid csaat := by
  obtain ⟨least, most⟩ := g.len_bounds valid
  exact s.decode_of_spelled (.ofSegment g csaat) _
    (Command.spelled_toWord (.ofSegment g csaat) least (Nat.le_succ_of_le most))

def queueWords (s : Simulator) (ws : List Word) : Simulator :=
  { s with tx := s.tx ++ ws, writes := s.writes ++ ws.map fun w => (Register.txData, w) }

def txRoom (s : Simulator) : Nat := s.build.txDepth - s.tx.length

def dropWords (s : Simulator) (n : Nat) : Simulator := { s with rx := s.rx.drop n }

def queueSegment (s : Simulator) (g : Segment) (csaat : Bool) : Simulator :=
  RegisterBlock.write .command (Command.ofSegment g csaat).toWord s

theorem pushCommand_of_allowed (s : Simulator) (w : Word)
    (allowed : Command.codesAllowed (Command.directionField.get w)
      (Command.speedField.get w) = true)
    (room : s.queue.length < s.build.cmdDepth) :
    s.pushCommand w =
      if s.build.lines ≤ s.csid.toNat then s.raise Faults.csidInvalid.bits
      else { s with accepted := s.accepted ++ [s.decode w], queue := s.queue ++ [s.decode w] } := by
  have codes : ¬ ((s.decode w).speed = 3 ∨
      (s.decode w).direction = 3 ∧ (s.decode w).speed ≠ 0) := by
    rw [Command.codesAllowed_iff] at allowed
    simp only [decode]
    omega
  simp only [pushCommand, Nat.not_le.mpr room, codes, if_false]
  rfl

theorem queueSegment_eq (s : Simulator) (g : Segment) (csaat : Bool)
    (valid : g.validate = .ok ()) (room : s.queue.length < s.build.cmdDepth) :
    s.queueSegment g csaat =
      if s.build.lines ≤ s.csid.toNat then
        { s with
          writes := s.writes ++ [(.command, (Command.ofSegment g csaat).toWord)]
          errorStatus := s.errorStatus ||| Faults.csidInvalid.bits }
      else
        { s with
          writes := s.writes ++ [(.command, (Command.ofSegment g csaat).toWord)]
          accepted := s.accepted ++ [g.entry s.csid csaat]
          queue := s.queue ++ [g.entry s.csid csaat] } := by
  have allowed : Command.codesAllowed
      (Command.directionField.get (Command.ofSegment g csaat).toWord)
      (Command.speedField.get (Command.ofSegment g csaat).toWord) = true := by
    rw [Command.direction_toWord, Command.speed_toWord, Command.codesAllowed_code]
    exact (g.valid_parts valid).1
  change pushCommand _ _ = _
  rw [pushCommand_of_allowed _ _ allowed (by exact room), decode_ofSegment _ g csaat valid]
  rfl

theorem queueSegment_of_line (s : Simulator) (g : Segment) (csaat : Bool)
    (valid : g.validate = .ok ()) (room : s.queue.length < s.build.cmdDepth)
    (line : s.csid.toNat < s.build.lines) :
    s.queueSegment g csaat =
      { s with
        writes := s.writes ++ [(.command, (Command.ofSegment g csaat).toWord)]
        accepted := s.accepted ++ [g.entry s.csid csaat]
        queue := s.queue ++ [g.entry s.csid csaat] } := by
  rw [s.queueSegment_eq g csaat valid room]
  exact if_neg (Nat.not_le.mpr line)

theorem queueSegment_of_no_line (s : Simulator) (g : Segment) (csaat : Bool)
    (valid : g.validate = .ok ()) (room : s.queue.length < s.build.cmdDepth)
    (line : s.build.lines ≤ s.csid.toNat) :
    s.queueSegment g csaat =
      { s with
        writes := s.writes ++ [(.command, (Command.ofSegment g csaat).toWord)]
        errorStatus := s.errorStatus ||| Faults.csidInvalid.bits } := by
  rw [s.queueSegment_eq g csaat valid room]
  exact if_pos line

end Simulator

namespace Host

variable (h : Host Simulator)

theorem writeWord_of_room (w : Word) (room : h.block.tx.length < h.block.build.txDepth) :
    h.writeWord w = (.ok (), { h with block := h.block.queueWords [w] }) := by
  have notFull : (⟨h.block.status⟩ : Status).tx.isFull = false := by
    rw [Simulator.status_txFull]
    simpa using room
  change (if (⟨h.block.status⟩ : Status).tx.isFull then _ else _) = _
  rw [notFull]
  simp only [Bool.false_eq_true, if_false, write, RegisterBlock.write, Simulator.writeRegister,
    Simulator.applyWrite, Simulator.pushData, Nat.not_le.mpr room, Simulator.queueWords,
    List.map_cons, List.map_nil]

theorem writeWord_of_full (w : Word) (full : h.block.build.txDepth ≤ h.block.tx.length) :
    h.writeWord w = (.error .txQueueFull, h) := by
  have isFull : (⟨h.block.status⟩ : Status).tx.isFull = true := by
    rw [Simulator.status_txFull]
    simpa using full
  change (if (⟨h.block.status⟩ : Status).tx.isFull then _ else _) = _
  rw [isFull]
  rfl

theorem writeWords_eq (ws : List Word) :
    h.writeWords ws =
      (min ws.length h.block.txRoom,
        { h with block := h.block.queueWords (ws.take (min ws.length h.block.txRoom)) }) := by
  induction ws generalizing h with
  | nil => simp [writeWords, Simulator.queueWords]
  | cons w rest ih =>
    by_cases room : h.block.tx.length < h.block.build.txDepth
    · have one : min (rest.length + 1) h.block.txRoom =
          min rest.length (h.block.queueWords [w]).txRoom + 1 := by
        simp only [Simulator.txRoom, Simulator.queueWords, List.length_append, List.length_cons,
          List.length_nil]
        omega
      simp only [writeWords, writeWord_of_room h w room, ih, List.length_cons, one,
        List.take_succ_cons]
      simp only [Simulator.queueWords, List.append_assoc, List.map_cons, List.map_nil,
        List.cons_append, List.nil_append]
    · have full := Nat.not_lt.mp room
      have none : h.block.txRoom = 0 := Nat.sub_eq_zero_of_le full
      simp [writeWords, writeWord_of_full h w full, none, Simulator.queueWords]

theorem readWord_of_words (w : Word) (rest : List Word) (words : h.block.rx = w :: rest) :
    h.readWord = (.ok w, { h with block := h.block.dropWords 1 }) := by
  have some : (⟨h.block.status⟩ : Status).rx.isEmpty = false := by
    rw [Simulator.status_rxEmpty, words]
    rfl
  have popped : h.block.popData = (w, h.block.dropWords 1) := by
    simp only [Simulator.popData, words, Simulator.dropWords, List.drop_succ_cons, List.drop_zero]
  have unfolded : h.readWord =
      if (⟨h.block.status⟩ : Status).rx.isEmpty then (.error .rxQueueEmpty, h)
      else (.ok h.block.popData.1, { h with block := h.block.popData.2 }) := rfl
  rw [unfolded, some, popped]
  rfl

theorem readWord_of_empty (empty : h.block.rx = []) :
    h.readWord = (.error .rxQueueEmpty, h) := by
  have none : (⟨h.block.status⟩ : Status).rx.isEmpty = true := by
    rw [Simulator.status_rxEmpty, empty]
    rfl
  change (if (⟨h.block.status⟩ : Status).rx.isEmpty then _ else _) = _
  rw [none]
  rfl

theorem readWords_eq (n : Nat) :
    h.readWords n =
      (h.block.rx.take n, { h with block := h.block.dropWords n }) := by
  induction n generalizing h with
  | zero => rfl
  | succ n ih =>
    cases words : h.block.rx with
    | nil =>
      have same : h.block.dropWords (n + 1) = h.block := by
        simp only [Simulator.dropWords, words, List.drop_nil]
        rw [← words]
      simp only [readWords, readWord_of_empty h words, List.take_nil, same]
    | cons w rest =>
      simp only [readWords, readWord_of_words h w rest words, ih, Simulator.dropWords, words,
        List.drop_succ_cons, List.drop_zero, List.take_succ_cons]

theorem checkQueue_cases :
    (∃ err, HostError.isTransient err = true ∧ h.checkQueue = (.error err, h) ∧
        (h.limits.cmdDepth.toNat ≤ h.block.queue.length ∨
          h.block.build.cmdDepth ≤ h.block.queue.length)) ∨
      (h.checkQueue = (.ok (), h) ∧ h.block.queue.length < h.block.build.cmdDepth) := by
  have level := h.block.status_cmdLevel
  have ready := h.block.status_isReady
  have unfolded : h.checkQueue =
      if h.limits.cmdDepth.toNat ≤ (⟨h.block.status⟩ : Status).cmdLevel then
        (.error .commandFull, h)
      else if (⟨h.block.status⟩ : Status).isReady = false then (.error .notReady, h)
      else (.ok (), h) := rfl
  rw [unfolded, level, ready]
  by_cases full : h.limits.cmdDepth.toNat ≤ h.block.queue.length % 16
  · refine .inl ⟨.commandFull, rfl, by rw [if_pos full], .inl ?_⟩
    exact Nat.le_trans full (Nat.mod_le _ _)
  · by_cases room : h.block.queue.length < h.block.build.cmdDepth
    · exact .inr ⟨by simp [full, room], room⟩
    · exact .inl ⟨.notReady, rfl, by simp [full, room], .inr (Nat.not_lt.mp room)⟩

theorem setCommand_cases (g : Segment) (csaat : Bool) (valid : g.validate = .ok ()) :
    (∃ err, HostError.isTransient err = true ∧
        h.setCommand (.ofSegment g csaat) = (.error err, h) ∧
        (h.limits.cmdDepth.toNat ≤ h.block.queue.length ∨
          h.block.build.cmdDepth ≤ h.block.queue.length)) ∨
      (h.setCommand (.ofSegment g csaat) =
          (.ok (), { h with block := h.block.queueSegment g csaat }) ∧
        h.block.queue.length < h.block.build.cmdDepth) := by
  have accepted : (Command.ofSegment g csaat).validate = .ok () := by
    obtain ⟨allowed, nonzero, bound⟩ := g.valid_parts valid
    simp [Command.validate, Command.ofSegment, allowed, nonzero, UInt32.not_lt.mpr bound]
  simp only [setCommand, accepted, queueWord]
  rcases h.checkQueue_cases with ⟨err, transient, refused, full⟩ | ⟨taken, room⟩
  · exact .inl ⟨err, transient, by rw [refused], full⟩
  · exact .inr ⟨by rw [taken]; rfl, room⟩

end Host

end SerialBus
