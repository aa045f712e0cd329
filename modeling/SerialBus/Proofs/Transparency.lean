import SerialBus.Proofs.Bus.Holding
import SerialBus.Proofs.Bus.Success

namespace SerialBus

open Simulator (Move replies)

namespace WordBus

namespace Way

/-- A piece as this way moves it: it is only sent, only received, or as much is sent as received. -/
def Proper (out dst : List Word) : Way → Prop
  | send => dst = []
  | receive => out = []
  | exchange => out.length = dst.length

def asks (out dst : List Word) : Way → List (Option Word)
  | send => []
  | receive => List.replicate dst.length none
  | exchange => out.map some

variable {s r : Buffer} {out dst : List Word} {way : Way}

theorem Proper.length_asks (proper : way.Proper out dst) :
    (way.asks out dst).length = dst.length := by
  cases way with
  | send => exact (congrArg List.length (show dst = [] from proper)).symm
  | receive => exact List.length_replicate
  | exchange => exact List.length_map _ |>.trans proper

theorem asks_nil (way : Way) : way.asks [] [] = [] := by
  cases way <;> rfl

theorem asks_append (way : Way) (out dst more others : List Word) :
    way.asks (out ++ more) (dst ++ others) = way.asks out dst ++ way.asks more others := by
  cases way with
  | send => rfl
  | receive => rw [asks, asks, asks, List.length_append, List.replicate_append_replicate]
  | exchange => exact List.map_append

theorem wordsFor_bytes (n : Nat) (small : n < 2 ^ 22) : wordsFor (bytes n).toNat = n := by
  have whole : (bytes n).toNat = n * 4 := by
    rw [bytes, UInt32.toNat_ofNat']
    omega
  rw [whole, wordsFor]
  omega

theorem constructed_transaction (s r : Buffer) (out dst : List Word) (way : Way) :
    (way.transaction s r out dst).Constructed := by
  cases way with
  | send => exact .inl ⟨_, _, rfl⟩
  | receive => exact .inr (.inl ⟨_, _, rfl⟩)
  | exchange => exact .inr (.inr (.inl ⟨_, _, _, rfl⟩))

theorem Proper.outgoing (proper : way.Proper out dst) (small : out.length < 2 ^ 22) :
    (way.transaction s r out dst).buffers.outgoing = out := by
  have stored : (s.store 0 out).words.take (wordsFor (bytes out.length).toNat) = out := by
    rw [wordsFor_bytes out.length small]
    exact s.take_store_zero out out.length rfl
  cases way with
  | send => exact stored
  | receive => exact (show out = [] from proper).symm
  | exchange => exact stored

theorem Proper.rxLen (proper : way.Proper out dst) (small : dst.length < 2 ^ 22) :
    (way.transaction s r out dst).buffers.rxLen = dst.length := by
  cases way with
  | send => exact (congrArg List.length (show dst = [] from proper)).symm
  | receive => exact wordsFor_bytes dst.length small
  | exchange =>
    have same : out.length = dst.length := proper
    rw [← same] at small ⊢
    exact wordsFor_bytes out.length small

theorem entries_transaction (s r : Buffer) (out dst : List Word) (way : Way) (csid : Word) :
    ∃ e : Simulator.Entry, (way.transaction s r out dst).entries csid = [e] ∧
      e.usesTx = (way != .receive) ∧ e.usesRx = (way != .send) := by
  cases way with
  | send =>
    exact ⟨(Segment.tx (bytes out.length)).entry csid false, rfl, rfl, rfl⟩
  | receive =>
    exact ⟨(Segment.rx (bytes dst.length)).entry csid false, rfl, rfl, rfl⟩
  | exchange =>
    exact ⟨(Segment.bidir (bytes out.length)).entry csid false, rfl, rfl, rfl⟩

theorem Proper.received_eq {base t : Simulator} {h : Handle} {received : List Word}
    (proper : way.Proper out dst) (small : out.length < 2 ^ 22) (few : dst.length < 2 ^ 22)
    (settled : Engine.Settled base ⟨h, way.transaction s r out dst, {}⟩ received t) :
    received = replies base.miso base.loopback (way.asks out dst) := by
  obtain ⟨e, entries, sends, receives⟩ := entries_transaction s r out dst way h.slave.line
  have own : t.accepted.drop base.accepted.length = [e] := by
    rw [settled.accepted, List.drop_left]
    exact entries
  have kind {p : Simulator.Entry → Prop} (holds : p e) :
      ∀ x ∈ t.accepted.drop base.accepted.length, p x := by
    rw [own]
    exact fun x member => List.mem_singleton.mp member ▸ holds
  have count : received.length = dst.length := settled.count.trans (proper.rxLen few)
  cases way with
  | send => exact settled.echo.of_silent (kind receives)
  | receive =>
    rw [asks, ← count]
    exact settled.echo.of_receiving (kind ⟨sends, receives⟩)
  | exchange =>
    have sent := settled.sent
    rw [show (Request.transaction ⟨h, exchange.transaction s r out dst, {}⟩).buffers.outgoing = out
      from proper.outgoing small] at sent
    exact settled.echo.of_exchanging out (kind ⟨sends, receives⟩) sent

end Way

/-- From the block `s` to `t` the words are sent and the far end answers, by `n` commands. -/
structure Speaks (s t : Simulator) (words : List Word) (asks : List (Option Word)) (n : Nat) :
    Prop where
  sent : t.sent = s.sent ++ words
  miso : t.miso = s.miso.drop asks.length
  loopback : t.loopback = s.loopback
  accepted : t.accepted.length = s.accepted.length + n

namespace Speaks

variable {s t u : Simulator} {words more : List Word} {asks others : List (Option Word)} {n m : Nat}

theorem refl (s : Simulator) : Speaks s s [] [] 0 :=
  ⟨(List.append_nil _).symm, rfl, rfl, rfl⟩

theorem trans (first : Speaks s t words asks n) (second : Speaks t u more others m) :
    Speaks s u (words ++ more) (asks ++ others) (n + m) := by
  refine ⟨?_, ?_, second.loopback.trans first.loopback, ?_⟩
  · rw [second.sent, first.sent, List.append_assoc]
  · rw [second.miso, first.miso, List.drop_drop, List.length_append]
  · rw [second.accepted, first.accepted, Nat.add_assoc]

end Speaks

variable {ω : Type} {builds : PeripheralId → Simulator.Build} {board : Board} {h : Handle}
  {tx rx : Buffer} {id : PeripheralId} {w : Wait (Controller Simulator × ω)}
  {b next : WordBus Simulator ω} {way : Way} {out dst : List Word}

def block (b : WordBus Simulator ω) (id : PeripheralId) : Simulator := b.shared.1.block id

/-- A bus between two pieces, on a block with nothing in its queues. -/
structure Rests (builds : PeripheralId → Simulator.Build) (board : Board) (h : Handle)
    (tx rx : Buffer) (id : PeripheralId) (b : WordBus Simulator ω) : Prop
    extends Ready Simulator.apply (Controller.freshBlocks builds) board h tx rx b where
  sent : (b.block id).tx = []
  got : (b.block id).rx = []

theorem Rests.move (rests : Rests builds board h tx rx id b) (block : h.id = some id)
    (plays : Controller.Plays Simulator.apply (fun a => a.calm id = true) w)
    (proper : way.Proper out dst) (inTx : out.length ≤ tx.size) (inRx : dst.length ≤ rx.size)
    (small : out.length < 2 ^ 22) (few : dst.length < 2 ^ 22)
    (moved : way.move w out dst b = (.ok (), next)) :
    Rests builds board h tx rx id next ∧ (way.wait? out dst b).isSome = true ∧
      Speaks (b.block id) (next.block id) out (way.asks out dst) 1 ∧
      next.received dst =
        replies (b.block id).miso (b.block id).loopback (way.asks out dst) := by
  obtain ⟨s, r, sends, receives⟩ := rests.exists_scratch
  have lent : way.transaction? out dst b = _ := Way.transaction?_eq sends receives way
  rcases ran : Blocking.run w b.handle (way.transaction s r out dst) b.shared with ⟨result, shared⟩
  obtain ⟨answer, back, rfl⟩ := Blocking.exists_bring result
  rw [Way.move_eq lent ran] at moved
  obtain ⟨rfl, rfl⟩ := Prod.mk.inj moved
  obtain ⟨⟨started, accepted⟩, reached, received, rfl, settled⟩ :=
    Blocking.run_of_success rests.reached (by rw [rests.handle]; exact block) plays
      (Way.constructed_transaction s r out dst way) rests.sent rests.got ran
  have answers := proper.received_eq small few settled
  have count : received.length = dst.length := settled.count.trans (proper.rxLen few)
  have asked := proper.length_asks
  have stored : (r.store 0 received).site = r.site := r.site_store received (by
    rw [count, rests.size_rx receives]
    exact inRx)
  have filled : ((way.transaction s r out dst).buffers.filled received).rx.map Buffer.site =
      (way.transaction s r out dst).buffers.rx.map Buffer.site := by
    cases way with
    | send => rfl
    | receive => exact congrArg some stored
    | exchange => exact congrArg some stored
  refine ⟨⟨⟨rests.regain sends receives inTx way shared rfl filled,
      (way.handle_regain _ shared b).trans rests.handle, reached⟩, settled.empty.tx,
      settled.empty.rx⟩, ?_, ⟨?_, ?_, settled.echo.loopback, ?_⟩, ?_⟩
  · rw [Way.wait?, lent]
    simp only [accepted, Option.isSome_some]
  · exact settled.sent.trans (congrArg (_ ++ ·) (proper.outgoing small))
  · rw [asked, ← count]
    exact settled.echo.miso
  · obtain ⟨e, entries, -⟩ := Way.entries_transaction s r out dst way b.handle.slave.line
    have accepted := congrArg List.length settled.accepted
    rwa [List.length_append, entries] at accepted
  · refine Eq.trans ?_ answers
    cases way with
    | send =>
      have none : dst = [] := proper
      have nothing : received = [] := List.eq_nil_of_length_eq_zero (count.trans (by rw [none]; rfl))
      rw [none, nothing]
      exact List.eq_nil_of_length_eq_zero (Nat.le_zero.mp (length_received_le _ []))
    | receive => exact r.take_store_zero received dst.length count
    | exchange => exact r.take_store_zero received dst.length count

theorem Rests.forEach (rests : Rests builds board h tx rx id b) (block : h.id = some id)
    (plays : Controller.Plays Simulator.apply (fun a => a.calm id = true) w) (way : Way) {n : Nat}
    (inTx : n ≤ tx.size) (inRx : n ≤ rx.size) (small : n < 2 ^ 22) (ps : Pieces)
    (short : ∀ p ∈ ps, p.1.length ≤ n ∧ p.2.length ≤ n)
    (proper : ∀ p ∈ ps, way.Proper p.1 p.2) (ok : (forEach (way.move w) ps b).1 = .ok ()) :
    let (_, ws, last) := forEach (way.move w) ps b
    let out := (ps.map Prod.fst).flatten
    let asks := way.asks out (ps.map Prod.snd).flatten
    Rests builds board h tx rx id last ∧ (waits w way ps b).length = ps.length ∧
      Speaks (b.block id) (last.block id) out asks ps.length ∧
      ws = replies (b.block id).miso (b.block id).loopback asks := by
  induction ps generalizing b with
  | nil =>
    refine ⟨rests, rfl, ?_, ?_⟩
    · rw [List.map_nil, List.map_nil, List.flatten_nil, way.asks_nil]
      exact .refl _
    · rw [List.map_nil, List.map_nil, List.flatten_nil, way.asks_nil]
      rfl
  | cons p rest ih =>
    obtain ⟨out, dst⟩ := p
    obtain ⟨outShort, dstShort⟩ := short _ List.mem_cons_self
    simp only at outShort dstShort
    rcases moved : way.move w out dst b with ⟨err | ⟨⟩, next⟩
    · rw [forEach_of_failed moved] at ok
      cases ok
    · rw [forEach_of_moved moved] at ok ⊢
      obtain ⟨first, waited, speaks, answers⟩ := rests.move block plays
        (proper _ List.mem_cons_self) (Nat.le_trans outShort inTx) (Nat.le_trans dstShort inRx)
        (Nat.lt_of_le_of_lt outShort small) (Nat.lt_of_le_of_lt dstShort small) moved
      obtain ⟨last, count, more, later⟩ := ih first
        (fun q member => short q (List.mem_cons_of_mem _ member))
        (fun q member => proper q (List.mem_cons_of_mem _ member)) ok
      simp only [List.map_cons, List.flatten_cons, way.asks_append, List.length_cons]
      refine ⟨last, ?_, ?_, ?_⟩
      · rw [waits_of_moved moved, List.length_append, count, Option.length_toList, waited]
        exact Nat.add_comm 1 _
      · rw [Nat.add_comm]
        exact speaks.trans more
      · -- the later pieces are answered out of what this one left of the script
        rw [speaks.miso, speaks.loopback] at later
        rw [Simulator.replies_append, ← later, answers]

namespace Call

def asks (call : Call) : List (Option Word) :=
  match call with
  | read dst => List.replicate dst.length none
  | write _ => []
  | transfer _ out => (call.padded out).map some
  | transferInPlace words => words.map some

theorem asks_eq (call : Call) : call.way.asks call.source call.destination = call.asks := by
  cases call <;> rfl

theorem proper_pieces {n : Nat} (positive : 0 < n) (call : Call) :
    ∀ p ∈ call.pieces n, call.way.Proper p.1 p.2 := by
  intro p member
  cases call with
  | read dst =>
    obtain ⟨c, -, rfl⟩ := List.mem_map.mp member
    rfl
  | write words =>
    obtain ⟨c, -, rfl⟩ := List.mem_map.mp member
    rfl
  | transfer dst out => exact (transfer dst out).length_exchanged positive rfl p member
  | transferInPlace words => exact (transferInPlace words).length_exchanged positive rfl p member

end Call

theorem Rests.call (rests : Rests builds board h tx rx id b) (block : h.id = some id)
    (plays : Controller.Plays Simulator.apply (fun a => a.calm id = true) w)
    (small : min tx.size rx.size < 2 ^ 22) (call : Call) (ok : (call.run w b).1 = .ok ()) :
    let (_, ws, after) := call.run w b
    let transactions := (call.total + (b.chunkSize - 1)) / b.chunkSize
    Rests builds board h tx rx id after ∧ (call.waits w b).length = transactions ∧
      Speaks (b.block id) (after.block id) call.source call.asks transactions ∧
      ws = (replies (b.block id).miso (b.block id).loopback call.asks).take call.target.length := by
  rw [call.run_eq] at ok ⊢
  by_cases none : b.chunkSize = 0
  · rw [if_pos none] at ok
    cases ok
  rw [if_neg none] at ok ⊢
  have positive : 0 < b.chunkSize := Nat.pos_of_ne_zero none
  have size := rests.chunkSize_eq
  obtain ⟨last, count, speaks, answers⟩ := rests.forEach block plays call.way (by omega) (by omega)
    (by omega) (call.pieces b.chunkSize) (call.pieces_le positive) (call.proper_pieces positive) ok
  obtain ⟨out, dst⟩ := call.cut_pieces positive
  rw [out.flatten_eq positive, dst.flatten_eq positive, call.asks_eq,
    call.length_pieces positive] at speaks
  rw [out.flatten_eq positive, dst.flatten_eq positive, call.asks_eq] at answers
  rw [call.length_pieces positive] at count
  refine ⟨last, ?_, speaks, congrArg (List.take call.target.length) answers⟩
  rw [Call.waits, if_neg none]
  exact count

theorem forEach_exchange_congr {β ω : Type} [RegisterBlock β] (w : Wait (Controller β × ω))
    (ps qs : Pieces) (b : WordBus β ω) (same : ps.map Prod.fst = qs.map Prod.fst) :
    (forEach (Way.exchange.move w) ps b).1 = (forEach (Way.exchange.move w) qs b).1 ∧
      (forEach (Way.exchange.move w) ps b).2.2 = (forEach (Way.exchange.move w) qs b).2.2 := by
  induction ps generalizing qs b with
  | nil =>
    cases qs with
    | nil => exact ⟨rfl, rfl⟩
    | cons q qs => cases same
  | cons p ps ih =>
    cases qs with
    | nil => cases same
    | cons q qs =>
      obtain ⟨out, dst⟩ := p
      obtain ⟨other, room⟩ := q
      obtain ⟨rfl, rest⟩ := List.cons.inj same
      -- an exchange looks at what it sends only, not at where the received words go
      have alike : Way.exchange.move w out room b = Way.exchange.move w out dst b := rfl
      rcases moved : Way.exchange.move w out dst b with ⟨err | ⟨⟩, next⟩
      · rw [forEach_of_failed moved, forEach_of_failed (alike.trans moved)]
        exact ⟨rfl, rfl⟩
      · rw [forEach_of_moved moved, forEach_of_moved (alike.trans moved)]
        exact ih qs next rest

theorem padded_of_length (dst words : List Word) (same : dst.length = words.length) :
    (Call.transfer dst words).padded words = words := by
  have full : max dst.length words.length - words.length = 0 := by omega
  rw [Call.padded, Call.total, full, List.replicate_zero, List.append_nil]

theorem inPlace_eq_transfer {β ω : Type} [RegisterBlock β] (w : Wait (Controller β × ω))
    (b : WordBus β ω) (words dst : List Word) (same : dst.length = words.length) :
    (b.transferInPlace w words).1 = (b.transfer w dst words).1 ∧
      (b.transferInPlace w words).2.2 = (b.transfer w dst words).2.2 := by
  have alone := (Call.transferInPlace words).run_eq w b
  have apart := (Call.transfer dst words).run_eq w b
  change b.transferInPlace w words = _ at alone
  change b.transfer w dst words = _ at apart
  rw [alone, apart]
  by_cases none : b.chunkSize = 0
  · rw [if_pos none, if_pos none]
    exact ⟨rfl, rfl⟩
  · rw [if_neg none, if_neg none]
    have positive : 0 < b.chunkSize := Nat.pos_of_ne_zero none
    have padded := padded_of_length dst words same
    refine forEach_exchange_congr w _ _ b ?_
    have lengths := (Call.transfer dst words).length_padded dst (Nat.le_max_left _ _)
    have others := (Call.transfer dst words).length_padded words (Nat.le_max_right _ _)
    rw [Call.pieces, Call.pieces, (zip_chunks_eq positive _ _ (others.trans lengths.symm)).1,
      padded, List.map_map]
    exact List.map_id _

/-- A call that comes back as a success, on a block with nothing in its queues and left to the bus and
    its interrupt handler. It has sent its own words in order and nothing else, a transfer with zeros
    behind the shorter slice; its slice holds what the far end answers to them, out of the script
    first and then out of what was sent at the same time; and it has taken one transaction for each
    `n` words begun. The scratch buffers decide nothing but `n`. An exchange in place does what one
    with a slice of its own does. -/
theorem chunking_is_transparent (builds : PeripheralId → Simulator.Build) (board : Board)
    {c : Controller Simulator}
    (reached : Controller.Reached Simulator.apply (fun _ => True) (Controller.freshBlocks builds)
      board c)
    (w : Wait (Controller Simulator × ω)) (h : Handle) (id : PeripheralId) (block : h.id = some id)
    (plays : Controller.Plays Simulator.apply (fun a => a.calm id = true) w) (tx rx : Buffer)
    (small : min tx.size rx.size < 2 ^ 22) (o : ω) (sent : (c.block id).tx = [])
    (got : (c.block id).rx = []) :
    let b : WordBus Simulator ω := ⟨h, some tx, some rx, (c, o)⟩
    let s := c.block id
    let n := min tx.size rx.size
    (∀ call : Call,
        let (answer, ws, after) := call.run w b
        let t := after.block id
        let transactions := (call.total + (n - 1)) / n
        answer = .ok () →
          t.sent = s.sent ++ call.source ∧
            ws = (replies s.miso s.loopback call.asks).take call.target.length ∧
            t.miso = s.miso.drop call.asks.length ∧ t.loopback = s.loopback ∧
            (call.waits w b).length = transactions ∧
            t.accepted.length = s.accepted.length + transactions ∧
            t.tx = [] ∧ t.rx = [] ∧ Holds tx rx after) ∧
      ∀ words dst : List Word, dst.length = words.length →
        let (answer, ws, after) := b.transferInPlace w words
        let (other, vs, later) := b.transfer w dst words
        answer = other ∧ after = later ∧ (answer = .ok () → ws = vs) := by
  intro b s n
  have rests : Rests builds board h tx rx id b := ⟨⟨⟨rfl, rfl⟩, rfl, reached⟩, sent, got⟩
  constructor
  · intro call ok
    obtain ⟨last, count, speaks, answers⟩ := rests.call block plays small call ok
    exact ⟨speaks.sent, answers, speaks.miso, speaks.loopback, count, speaks.accepted, last.sent,
      last.got, last.toHolds⟩
  · intro words dst same
    obtain ⟨answer, after⟩ := inPlace_eq_transfer w b words dst same
    refine ⟨answer, after, fun ok => ?_⟩
    obtain ⟨-, -, -, alone⟩ := rests.call block plays small (.transferInPlace words) ok
    obtain ⟨-, -, -, apart⟩ := rests.call block plays small (.transfer dst words) (answer.symm.trans ok)
    refine alone.trans (Eq.trans ?_ apart.symm)
    rw [Call.asks, Call.asks, padded_of_length dst words same, Call.target, Call.target, same]

theorem chunking_is_transparent_scripted :
    let c := Controller.fitted.run Simulator.apply
      [.move .host (.pushMiso [7]), .move .host (.setLoopback true)]
    let w := Blocking.playing [.move .host .tick, .move .host .tick, .handleIrq .host]
    let tx : Buffer := { address := 1, words := [0, 0, 0] }
    let rx : Buffer := { address := 2, words := [0, 0] }
    let b : WordBus Simulator Unit := ⟨Controller.benchHandle, some tx, some rx, (c, ())⟩
    let (answer, ws, after) := b.transferInPlace w [1, 2, 3]
    let (_, vs, later) := b.transfer w [0, 0, 0] [1, 2, 3]
    answer = .ok () ∧ ws = [7, 2, 3] ∧ (after.block .host).sent = [1, 2, 3] ∧
      (after.block .host).accepted.length = 2 ∧ vs = ws ∧ later = after := by
  intro c w tx rx b
  have reached : Controller.Reached Simulator.apply (fun _ => True)
      (Controller.freshBlocks fun _ => {}) {} c :=
    (Controller.fitted_reached (fun _ => True) trivial).run _ fun _ _ => trivial
  obtain ⟨calls, twins⟩ := chunking_is_transparent (fun _ => {}) {} reached w
    Controller.benchHandle .host rfl
    (Blocking.plays_playing _ (by simp [Action.calm, Action.stimulus?, Stimulus.isCalm])) tx rx
    (by decide) () (by decide +kernel) (by decide +kernel)
  have ok : ((Call.transferInPlace [1, 2, 3]).run w b).1 = .ok () := by decide +kernel
  obtain ⟨sent, answers, -, -, -, accepted, -⟩ := calls (.transferInPlace [1, 2, 3]) ok
  obtain ⟨-, same, words⟩ := twins [1, 2, 3] [0, 0, 0] rfl
  have script : (c.block .host).miso = [7] := by decide +kernel
  have looped : (c.block .host).loopback = true := by decide +kernel
  have fresh : (c.block .host).sent = [] ∧ (c.block .host).accepted = [] := by decide +kernel
  rw [script, looped] at answers
  rw [fresh.1] at sent
  rw [fresh.2] at accepted
  exact ⟨ok, answers, sent, accepted.trans (by decide), (words ok).symm, same.symm⟩

end WordBus

end SerialBus
