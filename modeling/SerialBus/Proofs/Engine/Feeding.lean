import SerialBus.Proofs.Engine.Tally

namespace SerialBus

/-- The buffer `y` is `x` with the words `ws` over its own from `start` on. -/
structure Buffer.Overwritten (x : Buffer) (start : Nat) (ws : List Word) (y : Buffer) : Prop where
  address : y.address = x.address
  size : y.size = x.size
  inside : y.words.extract start (start + ws.length) = ws
  outside : ∀ i, i < start ∨ start + ws.length ≤ i → y.words[i]? = x.words[i]?

theorem Buffer.overwritten_store (x : Buffer) (start : Nat) (ws : List Word)
    (fits : start + ws.length ≤ x.size) : x.Overwritten start ws (x.store start ws) := by
  have inside : start ≤ x.size := by omega
  constructor
  case address => rfl
  case size => exact x.size_store start ws fits
  case inside =>
    rw [List.extract_eq_take_drop, Nat.add_sub_cancel_left, Buffer.store, List.append_assoc,
      List.drop_left' (List.length_take_of_le inside), List.take_left]
  case outside =>
    rintro i (before | behind)
    · rw [← List.getElem?_take_of_lt before, x.take_store start ws inside,
        List.getElem?_take_of_lt before]
    · exact x.getElem?_store start ws inside i behind

def Buffers.contents (buffer : Option Buffer) : List Word := (buffer.map Buffer.words).getD []

theorem Buffers.length_contents (buffer : Option Buffer) :
    (contents buffer).length = room buffer := by
  cases buffer <;> rfl

namespace Engine

variable (e : Engine Simulator) {f : Engine Simulator} {t : Transaction} {k : Nat}

/-- The next `k` words of the transmit buffer of `t` have gone from `e` into the queue, and nothing
    else is different apart from the record of writes. -/
structure Filled (t : Transaction) (k : Nat) (e f : Engine Simulator) : Prop where
  there : e.cursors.tx + k ≤ (Buffers.contents t.buffers.tx).length
  queue : f.host.block.tx = e.host.block.tx ++
    (Buffers.contents t.buffers.tx).extract e.cursors.tx (e.cursors.tx + k)
  cursor : f.cursors.tx = e.cursors.tx + k
  rest : f =
    { e with
      host := { e.host with block :=
        { e.host.block with tx := f.host.block.tx, writes := f.host.block.writes } }
      cursors := { e.cursors with tx := f.cursors.tx } }

/-- The first `k` words of the receive queue of `e` have gone to the cursor in the receive buffer of
    `t`, and nothing else is different. -/
structure Emptied (t : Transaction) (k : Nat) (e f : Engine Simulator) : Prop where
  there : k ≤ e.host.block.rx.length
  queue : f.host.block.rx = e.host.block.rx.drop k
  cursor : f.cursors.rx = e.cursors.rx + k
  stored : ∃ rx, f.running = some { t with buffers := { t.buffers with rx } } ∧
    Option.Rel (fun x y => x.Overwritten e.cursors.rx (e.host.block.rx.take k) y) t.buffers.rx rx
  rest : f =
    { e with
      host := { e.host with block := { e.host.block with rx := f.host.block.rx } }
      running := f.running
      cursors := { e.cursors with rx := f.cursors.rx } }

theorem length_unsent (running : e.running = some t) (checked : t.buffers.check = .ok ()) :
    e.unsent.length = t.buffers.txLen - e.cursors.tx := by
  rw [e.unsent_of_running t running, List.length_drop, (t.buffers.check_eq_ok checked).1]

theorem take_unsent (running : e.running = some t) (left : k ≤ t.buffers.txLen - e.cursors.tx) :
    e.unsent.take k =
      (Buffers.contents t.buffers.tx).extract e.cursors.tx (e.cursors.tx + k) := by
  rw [e.unsent_of_running t running, List.extract_eq_take_drop, Nat.add_sub_cancel_left]
  unfold Buffers.outgoing Buffers.contents
  cases t.buffers.tx with
  | none => rfl
  | some x => rw [List.drop_take, List.take_take, Nat.min_eq_left left]; rfl

theorem filled_fillTx (running : e.running = some t) (checked : t.buffers.check = .ok ())
    (within : e.cursors.tx ≤ t.buffers.txLen) :
    Filled t (min (t.buffers.txLen - e.cursors.tx) e.host.block.txRoom) e e.fillTx := by
  obtain ⟨k, moved⟩ : ∃ k, min (t.buffers.txLen - e.cursors.tx) e.host.block.txRoom = k := ⟨_, rfl⟩
  have left : k ≤ t.buffers.txLen - e.cursors.tx := by omega
  have room := (t.buffers.room_of_check checked).1
  rw [← Buffers.length_contents] at room
  rw [moved, e.fillTx_eq, e.length_unsent running checked, moved, e.take_unsent running left]
  exact
    { there := by omega
      queue := rfl
      cursor := rfl
      rest := rfl }

theorem unsent_fillTx :
    e.fillTx.unsent = e.unsent.drop (min e.unsent.length e.host.block.txRoom) := by
  rw [e.fillTx_eq]
  generalize min e.unsent.length e.host.block.txRoom = n
  cases running : e.running with
  | none => simp only [unsent, running, List.drop_nil]
  | some t =>
    rw [e.unsent_of_running t running, List.drop_drop]
    exact unsent_of_running _ t rfl

theorem fillTx_of_none (none : min e.unsent.length e.host.block.txRoom = 0) : e.fillTx = e := by
  rw [e.fillTx_eq, none]
  simp only [List.take_zero, Simulator.queueWords, List.map_nil, List.append_nil, Nat.add_zero]

theorem fillTx_fillTx : e.fillTx.fillTx = e.fillTx := by
  apply fillTx_of_none
  have room : e.fillTx.host.block.txRoom =
      e.host.block.txRoom - min e.unsent.length e.host.block.txRoom := by
    simp only [e.fillTx_eq, Simulator.txRoom, Simulator.queueWords, List.length_append,
      List.length_take]
    omega
  rw [unsent_fillTx, List.length_drop, room]
  omega

theorem emptied_emptyRx (running : e.running = some t) (checked : t.buffers.check = .ok ())
    (within : e.cursors.rx ≤ t.buffers.rxLen) :
    Emptied t (e.drains t.buffers.rxLen) e e.emptyRx := by
  have there : e.drains t.buffers.rxLen ≤ e.host.block.rx.length := Nat.min_le_right _ _
  have few : e.drains t.buffers.rxLen ≤ t.buffers.rxLen - e.cursors.rx := Nat.min_le_left _ _
  have room := (t.buffers.room_of_check checked).2
  cases lent : t.buffers.rx with
  | none =>
    -- without a buffer nothing is left to receive
    have none : e.drains t.buffers.rxLen = 0 := by
      rw [lent] at room
      have zero : t.buffers.rxLen ≤ 0 := room
      omega
    rw [e.emptyRx_of_none t running lent, none]
    exact
      { there := Nat.zero_le _
        queue := rfl
        cursor := rfl
        stored := ⟨.none, by rw [running, ← lent], by rw [lent]; exact .none⟩
        rest := rfl }
  | some x =>
    rw [lent] at room
    have fits : t.buffers.rxLen ≤ x.size := room
    have count : (e.host.block.rx.take (e.drains t.buffers.rxLen)).length =
        e.drains t.buffers.rxLen :=
      List.length_take_of_le there
    have written := x.overwritten_store e.cursors.rx
      (e.host.block.rx.take (e.drains t.buffers.rxLen)) (by omega)
    rw [e.emptyRx_eq t x running lent fits]
    exact
      { there
        queue := rfl
        cursor := rfl
        stored := ⟨_, rfl, by rw [lent]; exact .some written⟩
        rest := rfl }

theorem emptyRx_of_drained (x : Buffer) (running : e.running = some t)
    (lent : t.buffers.rx = some x) (fits : t.buffers.rxLen ≤ x.size)
    (drained : e.drains t.buffers.rxLen = 0) : e.emptyRx = e := by
  rw [e.emptyRx_eq t x running lent fits, drained, List.take_zero, x.store_nil, ← lent]
  simp only [Simulator.dropWords, List.drop_zero, Nat.add_zero, ← running]

theorem emptyRx_emptyRx (running : e.running = some t) (checked : t.buffers.check = .ok ()) :
    e.emptyRx.emptyRx = e.emptyRx := by
  have room := (t.buffers.room_of_check checked).2
  cases lent : t.buffers.rx with
  | none => rw [e.emptyRx_of_none t running lent, e.emptyRx_of_none t running lent]
  | some x =>
    rw [lent] at room
    have fits : t.buffers.rxLen ≤ x.size := room
    have first := e.emptyRx_eq t x running lent fits
    have again : e.emptyRx.drains t.buffers.rxLen = 0 := by
      simp only [first, drains, Simulator.dropWords, List.length_drop]
      omega
    have long := Nat.le_trans fits (x.size_le_size_store e.cursors.rx
      (e.host.block.rx.take (e.drains t.buffers.rxLen)))
    have after := congrArg Engine.running first
    exact e.emptyRx.emptyRx_of_drained _ after rfl long again

/-- Feeding moves the words that are left of the transmit buffer as far as the queue has room, and
    draining the words that are there as far as the receive buffer has room: in order, and with
    nothing else changed. A second call does nothing. -/
theorem feeding_moves_what_fits (e : Engine Simulator) (t : Transaction)
    (running : e.running = some t) (checked : t.buffers.check = .ok ())
    (tx : e.cursors.tx ≤ t.buffers.txLen) (rx : e.cursors.rx ≤ t.buffers.rxLen) :
    let s := e.host.block
    Filled t (min (t.buffers.txLen - e.cursors.tx) (s.build.txDepth - s.tx.length)) e e.fillTx ∧
      Emptied t (min (t.buffers.rxLen - e.cursors.rx) s.rx.length) e e.emptyRx ∧
      e.fillTx.fillTx = e.fillTx ∧ e.emptyRx.emptyRx = e.emptyRx := by
  have fed := e.filled_fillTx running checked tx
  have drained := e.emptied_emptyRx running checked rx
  exact ⟨fed, drained, e.fillTx_fillTx, e.emptyRx_emptyRx running checked⟩

theorem feeding_moves_what_fits_both_ways :
    let t : Transaction :=
      { segments := [.bidir 12]
        buffers :=
          { tx := some ⟨0, [10, 11, 12, 13, 14]⟩, txLen := 4
            rx := some ⟨1, [20, 21, 22, 23, 24]⟩, rxLen := 3 } }
    let e : Engine Simulator :=
      { id := .host
        host := { block := { Simulator.fresh { txDepth := 4 } with tx := [8, 9], rx := [1, 2, 3] }
                  limits := {} }
        state := .busy, running := some t, cursors := { segment := 1, tx := 1, rx := 1 } }
    Filled t 2 e e.fillTx ∧ e.fillTx.host.block.tx = [8, 9, 11, 12] ∧
      Emptied t 2 e e.emptyRx ∧ e.emptyRx.host.block.rx = [3] ∧
      e.emptyRx.lent.rx = some ⟨1, [20, 1, 2, 23, 24]⟩ ∧
      e.fillTx.fillTx = e.fillTx ∧ e.emptyRx.emptyRx = e.emptyRx := by
  intro t e
  obtain ⟨fed, drained, once, alone⟩ :=
    feeding_moves_what_fits e t rfl (by decide) (by decide) (by decide)
  exact ⟨fed, by decide, drained, by decide, by decide, once, alone⟩

end Engine

end SerialBus
