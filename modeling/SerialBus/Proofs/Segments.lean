import SerialBus.Proofs.Simulator.Passage

namespace SerialBus

namespace Segment

open Simulator (Shift Active Entry Happening along moved finished refilled drained live)

theorem validate_eq_ok_iff (g : Segment) :
    g.validate = .ok () ↔ g.direction.allows g.speed = true ∧ g.len ≠ 0 ∧ g.len ≤ maxLen := by
  refine ⟨g.valid_parts, ?_⟩
  rintro ⟨allowed, some, short⟩
  simp [validate, validateAt, allowed, some, UInt32.not_lt.mpr short]

theorem ofSegment_validate_iff (g : Segment) (csaat : Bool) :
    (Command.ofSegment g csaat).validate = .ok () ↔
      g.direction.allows g.speed = true ∧ g.len ≠ 0 ∧ g.len ≤ maxLen := by
  change (if g.len = 0 ∨ maxLen < g.len then _ else if g.direction.allows g.speed = false then _
    else _) = _ ↔ _
  by_cases lengths : g.len = 0 ∨ maxLen < g.len
  · rw [if_pos lengths]
    refine ⟨fun none => (nomatch none), fun valid => ?_⟩
    rcases lengths with zero | long
    · exact absurd zero valid.2.1
    · exact absurd valid.2.2 (UInt32.not_le.mpr long)
  · rw [if_neg lengths]
    simp only [not_or, UInt32.not_lt] at lengths
    cases g.direction.allows g.speed <;> simp [lengths]

theorem ticks_eq (g : Segment) (valid : g.validate = .ok ()) :
    g.ticks =
      if g.direction = .dummy then max 1 ((g.len.toNat + 7) / 8) else (g.len.toNat + 3) / 4 := by
  have some := (g.len_bounds valid).1
  have dummy : 1 ≤ (g.len.toNat + 7) / 8 := by omega
  rw [ticks, Nat.max_eq_right dummy]

theorem moves_whole (g : Segment) (valid : g.validate = .ok ()) (csid : Word) (csaat : Bool) :
    (g.entry csid csaat).whole.moves = g.ticks := by
  have some : 1 ≤ (g.entry csid csaat).ticks :=
    (g.entry csid csaat).ticksFor_pos _ (g.len_bounds valid).1
  rw [← g.entry_ticks csid csaat]
  exact Nat.max_eq_right some

theorem length_filterMap_own (f : Shift → Option Word) (p : Bool) (own : List Shift)
    (ways : ∀ m ∈ own, (f m).isSome = p) :
    (own.filterMap f).length = if p then own.length else 0 := by
  rw [List.length_filterMap_eq_countP]
  cases p with
  | false =>
    rw [List.countP_eq_zero.mpr fun m member => by simp [ways m member]]
    rfl
  | true =>
    rw [List.countP_eq_length.mpr ways]
    rfl

/-- A command in a block, from the moment it is queued behind all that was there to the end of a
    run. -/
structure Executed (g : Segment) (e : Entry) (s t : Simulator) (hs : List Happening) : Prop where
  -- It has been carried out exactly if the bus has moved often enough for the commands before it
  -- and for itself.
  ended : s.outstanding.length < (along finished hs t).length ↔
    s.backlog + g.ticks ≤ (along moved hs t).length
  -- If so, it had as many moves as it takes, with as many words each way.
  own : s.outstanding.length < (along finished hs t).length →
    (along finished hs t)[s.outstanding.length]? = some e ∧
      ∃ earlier own later, along moved hs t = earlier ++ own ++ later ∧
        earlier.length = s.backlog ∧ own.length = g.ticks ∧ (∀ m ∈ own, m.entry = e) ∧
        (own.filterMap Shift.sent).length = g.txWords ∧
        (own.filterMap Shift.received).length = g.rxWords
  -- Words that are sent come out of the transmit queue, words that are received go into the
  -- receive queue.
  sent : t.tx ++ along refilled hs t =
    (along moved hs t).filterMap Shift.sent ++ (live hs t).tx
  received : t.rx ++ (along moved hs t).filterMap Shift.received =
    along drained hs t ++ (live hs t).rx

theorem words_of_own (g : Segment) (csid : Word) (csaat : Bool) (own : List Shift)
    (entries : own.map Shift.entry = List.replicate g.ticks (g.entry csid csaat))
    (ways : ∀ m ∈ own, m.sent.isSome = m.entry.usesTx ∧ m.received.isSome = m.entry.usesRx) :
    own.length = g.ticks ∧ (∀ m ∈ own, m.entry = g.entry csid csaat) ∧
      (own.filterMap Shift.sent).length = g.txWords ∧
      (own.filterMap Shift.received).length = g.rxWords := by
  have count : own.length = g.ticks := by
    simpa using congrArg List.length entries
  have entry (m : Shift) (member : m ∈ own) : m.entry = g.entry csid csaat := by
    have listed : m.entry ∈ own.map Shift.entry := List.mem_map_of_mem member
    rw [entries] at listed
    exact List.eq_of_mem_replicate listed
  refine ⟨count, entry, ?_, ?_⟩
  · rw [length_filterMap_own Shift.sent (g.entry csid csaat).usesTx own
      fun m member => entry m member ▸ (ways m member).1, count, ← g.share_usesTx csid csaat,
      Entry.share, g.entry_ticks csid csaat]
  · rw [length_filterMap_own Shift.received (g.entry csid csaat).usesRx own
      fun m member => entry m member ▸ (ways m member).2, count, ← g.share_usesRx csid csaat,
      Entry.share, g.entry_ticks csid csaat]

theorem executed_of_queued (g : Segment) (valid : g.validate = .ok ()) (csid : Word) (csaat : Bool)
    (s t : Simulator)
    (queued : t.outstanding = s.outstanding ++ [(g.entry csid csaat).whole])
    (hs : List Happening) (kept : ∀ h ∈ hs, h.resets = false) :
    Executed g (g.entry csid csaat) s t hs := by
  have carried := Simulator.carried_live hs t kept _ _ [] queued
  have moves := g.moves_whole valid csid csaat
  refine
    { ended := moves ▸ carried.ended, own := fun done => ?_
      sent := Simulator.tx_live hs t kept, received := Simulator.rx_live hs t kept }
  obtain ⟨entry, earlier, own, later, split, before, entries⟩ := carried.own done
  refine ⟨entry, earlier, own, later, split, before, ?_⟩
  refine g.words_of_own csid csaat own (moves ▸ entries) fun m member => ?_
  refine Simulator.moved_ways_along hs t m ?_
  rw [split]
  simp [member]

/-- The check of a segment and the check of its command agree. A segment that passes them is taken
    by any block with room for it, as what it is, and takes as many words and moves of the bus as it
    says, whatever happens to the block short of a software reset. -/
theorem layers_agree (g : Segment) (csaat : Bool) :
    (g.validate = .ok () ↔ (Command.ofSegment g csaat).validate = .ok ()) ∧
      (g.validate = .ok () →
        g.ticks =
            (if g.direction = .dummy then max 1 ((g.len.toNat + 7) / 8)
              else (g.len.toNat + 3) / 4) ∧
          ∀ s : Simulator, s.queue.length < s.build.cmdDepth → s.csid.toNat < s.build.lines →
            ∃ t e, t = RegisterBlock.write .command (Command.ofSegment g csaat).toWord s ∧
              t.errorStatus = s.errorStatus ∧ t.accepted = s.accepted ++ [e] ∧
              t.queue = s.queue ++ [e] ∧ t.outstanding = s.outstanding ++ [e.whole] ∧
              (e.len = g.len.toNat ∧ e.csaat = csaat ∧ e.speed = g.speed.code ∧
                e.direction = g.direction.code) ∧
              ∀ hs, (∀ h ∈ hs, h.resets = false) → Executed g e s t hs) := by
  refine ⟨(g.validate_eq_ok_iff).trans (g.ofSegment_validate_iff csaat).symm, fun valid => ?_⟩
  refine ⟨g.ticks_eq valid, fun s room line => ?_⟩
  have queued := s.queueSegment_of_line g csaat valid room line
  refine ⟨s.queueSegment g csaat, g.entry s.csid csaat, rfl, ?_⟩
  have behind : (s.queueSegment g csaat).outstanding =
      s.outstanding ++ [(g.entry s.csid csaat).whole] := by
    rw [queued]
    simp [Simulator.outstanding]
  refine ⟨by rw [queued], by rw [queued], by rw [queued], behind, ⟨rfl, rfl, rfl, rfl⟩, ?_⟩
  intro hs kept
  exact g.executed_of_queued valid s.csid csaat s _ behind hs kept

def waiting : Simulator := { Simulator.fresh {} with control := Control.enable.flag }

def haltingly : List Happening :=
  [.write .txData 7, .move .tick, .move .tick, .read .rxData, .write .txData 8, .move .tick]

theorem layers_agree_haltingly :
    (tx 5).validate = .ok () ∧
      ∃ e, Executed (tx 5) e waiting (waiting.queueSegment (tx 5) true) haltingly ∧
        (along moved haltingly (waiting.queueSegment (tx 5) true)).map Shift.sent =
          [some 7, some 8] := by
  obtain ⟨-, run⟩ := (layers_agree (tx 5) true).2 (by decide)
  obtain ⟨t, e, rfl, -, -, -, -, -, executed⟩ := run waiting (by decide) (by decide)
  exact ⟨by decide, e, executed haltingly (by decide), by decide⟩

end Segment

end SerialBus
