import SerialBus.ChipOptions
import SerialBus.Proofs.Fields

namespace SerialBus

namespace ChipOptions

def spareField : Field := ⟨28, 1⟩

def fields : List Field :=
  [clkdivField, idleField, trailField, leadField, fullCycleField, cphaField, cpolField]

def layout (o : ChipOptions) : List (Field × Nat) :=
  [(clkdivField, o.clkdiv.toNat), (idleField, o.idle.toNat), (trailField, o.trail.toNat),
    (leadField, o.lead.toNat), (fullCycleField, o.fullCycle.toNat), (cphaField, o.cpha.toNat),
    (cpolField, o.cpol.toNat)]

variable (o : ChipOptions)

theorem toWord_eq : o.toWord = Field.putAll o.layout 0 := rfl

theorem layout_fits : ∀ g ∈ o.layout.map Prod.fst, g.Fits :=
  show ∀ g ∈ fields, g.Fits by decide

theorem layout_apart : (o.layout.map Prod.fst).Pairwise Field.Disjoint :=
  show fields.Pairwise Field.Disjoint by decide

variable {o} in
theorem get_toWord {f : Field} {v : Nat} (member : (f, v) ∈ o.layout) :
    f.get o.toWord = v % 2 ^ f.width :=
  Field.get_putAll o.layout o.layout_fits o.layout_apart 0 member

variable {o} in
theorem isSet_toWord {f : Field} {b : Bool} (single : f.width = 1)
    (member : (f, b.toNat) ∈ o.layout) : f.isSet o.toWord = b :=
  Field.isSet_putAll o.layout o.layout_fits o.layout_apart 0 single member

theorem spare_toWord : spareField.get o.toWord = 0 := by
  rw [toWord_eq, Field.get_putAll_of_apart _ o.layout_fits _
    (show ∀ g ∈ fields, spareField.Disjoint g by decide), Field.get_zero]

/-- The options with their timing counts cut to the width of their fields. -/
def clipped (o : ChipOptions) : ChipOptions :=
  { o with
    idle := UInt8.ofNat (o.idle.toNat % 16)
    trail := UInt8.ofNat (o.trail.toNat % 16)
    lead := UInt8.ofNat (o.lead.toNat % 16) }

theorem ofWord_toWord : ofWord o.toWord = o.clipped := by
  have clkdiv : clkdivField.get o.toWord = o.clkdiv.toNat :=
    (get_toWord (by simp [layout])).trans (Nat.mod_eq_of_lt o.clkdiv.toNat_lt)
  have idle : idleField.get o.toWord = o.idle.toNat % 16 := get_toWord (by simp [layout])
  have trail : trailField.get o.toWord = o.trail.toNat % 16 := get_toWord (by simp [layout])
  have lead : leadField.get o.toWord = o.lead.toNat % 16 := get_toWord (by simp [layout])
  have fullCycle : fullCycleField.isSet o.toWord = o.fullCycle :=
    isSet_toWord rfl (by simp [layout])
  have cpha : cphaField.isSet o.toWord = o.cpha := isSet_toWord rfl (by simp [layout])
  have cpol : cpolField.isSet o.toWord = o.cpol := isSet_toWord rfl (by simp [layout])
  simp only [ofWord, clkdiv, idle, trail, lead, fullCycle, cpha, cpol, UInt16.ofNat_toNat, clipped]

theorem clipped_of_small (o : ChipOptions) (idle : o.idle ≤ Slave.timingMax)
    (trail : o.trail ≤ Slave.timingMax) (lead : o.lead ≤ Slave.timingMax) : o.clipped = o := by
  have whole (n : UInt8) (small : n ≤ Slave.timingMax) : UInt8.ofNat (n.toNat % 16) = n := by
    have bound : n.toNat ≤ 15 := UInt8.le_iff_toNat_le.mp small
    rw [Nat.mod_eq_of_lt (by omega), UInt8.ofNat_toNat]
  simp only [clipped, whole _ idle, whole _ trail, whole _ lead]

theorem clipped_eq :
    o.clipped = { o with idle := o.idle % 16, trail := o.trail % 16, lead := o.lead % 16 } := by
  have cut (n : UInt8) : UInt8.ofNat (n.toNat % 16) = n % 16 :=
    UInt8.toNat_inj.mp (by rw [UInt8.toNat_mod]; exact UInt8.toNat_ofNat_of_lt' (by
      show _ < 256
      omega))
  simp only [clipped, cut]

theorem clipped_eq_self_iff : o.clipped = o ↔ o.idle ≤ 15 ∧ o.trail ≤ 15 ∧ o.lead ≤ 15 := by
  constructor
  · intro same
    have small (n : UInt8) (kept : n % 16 = n) : n ≤ 15 := by
      rw [UInt8.le_iff_toNat_le, ← kept, UInt8.toNat_mod]
      exact Nat.le_of_lt_succ (Nat.mod_lt _ (by decide))
    rw [clipped_eq] at same
    exact ⟨small _ (congrArg idle same), small _ (congrArg trail same),
      small _ (congrArg lead same)⟩
  · rintro ⟨idle, trail, lead⟩
    exact o.clipped_of_small idle trail lead

theorem exists_layout {f : Field} (member : f ∈ fields) : ∃ v, (f, v) ∈ o.layout := by
  obtain ⟨p, inside, rfl⟩ := List.mem_map.mp (show f ∈ o.layout.map Prod.fst from member)
  exact ⟨p.2, inside⟩

theorem layout_ofWord (w : Word) {f : Field} {v : Nat} (member : (f, v) ∈ (ofWord w).layout) :
    v = f.get w := by
  have count (f : Field) (narrow : f.width = 4) : (UInt8.ofNat (f.get w)).toNat = f.get w := by
    have small := f.get_lt w
    rw [narrow] at small
    exact UInt8.toNat_ofNat_of_lt' (Nat.lt_of_lt_of_le small (by decide))
  have flag (f : Field) (single : f.width = 1) : (f.isSet w).toNat = f.get w :=
    (f.get_of_single single w).symm
  simp only [layout, List.mem_cons, Prod.mk.injEq, List.not_mem_nil, or_false] at member
  rcases member with ⟨rfl, rfl⟩ | ⟨rfl, rfl⟩ | ⟨rfl, rfl⟩ | ⟨rfl, rfl⟩ | ⟨rfl, rfl⟩ | ⟨rfl, rfl⟩ |
    ⟨rfl, rfl⟩
  · exact UInt16.toNat_ofNat_of_lt' (clkdivField.get_lt w)
  · exact count idleField rfl
  · exact count trailField rfl
  · exact count leadField rfl
  · exact flag fullCycleField rfl
  · exact flag cphaField rfl
  · exact flag cpolField rfl

theorem toWord_ofWord (w : Word) : (ofWord w).toWord = spareField.put 0 w := by
  apply Field.eq_of_cover (spareField :: fields) (by decide)
  rw [List.forall_mem_cons]
  constructor
  · rw [spare_toWord, Field.get_put_self _ (by decide)]
    rfl
  · intro f member
    obtain ⟨v, inside⟩ := (ofWord w).exists_layout member
    have apart : f.Disjoint spareField :=
      (show ∀ f ∈ fields, f.Disjoint spareField by decide) f member
    rw [get_toWord inside, layout_ofWord w inside, Nat.mod_eq_of_lt (f.get_lt w),
      Field.get_put_of_disjoint _ _ (by decide) apart]

theorem ofSlave_eq_iff (s t : Slave) (d e : UInt16) :
    ofSlave s d = ofSlave t e ↔
      d = e ∧ s.idle = t.idle ∧ s.trail = t.trail ∧ s.lead = t.lead ∧
        s.fullCycle = t.fullCycle ∧ s.mode = t.mode := by
  -- a mode is as good as its two bits
  have mode : s.mode = t.mode ↔
      decide (s.phase = .second) = decide (t.phase = .second) ∧
        decide (s.polarity = .idleHigh) = decide (t.polarity = .idleHigh) := by
    rw [Slave.mode, Slave.mode]
    generalize s.phase = p, s.polarity = q, t.phase = r, t.polarity = u
    cases p <;> cases q <;> cases r <;> cases u <;> decide
  rw [mode]
  simp only [ofSlave, mk.injEq]

end ChipOptions

structure Slave.Timed (s : Slave) : Prop where
  idle : s.idle ≤ timingMax
  lead : s.lead ≤ timingMax
  trail : s.trail ≤ timingMax

theorem Slave.timed_of_validate (s : Slave) (lines : UInt8) (sys : UInt32) (divider : UInt16)
    (valid : s.validate lines sys = .ok divider) : s.Timed := by
  unfold validate at valid
  split at valid
  · cases valid
  · split at valid
    · cases valid
    · rename_i timing
      simp only [not_or, UInt8.not_lt] at timing
      exact ⟨timing.1, timing.2.1, timing.2.2⟩

theorem Slave.Timed.ofWord_toWord {s : Slave} (timed : s.Timed) (divider : UInt16) :
    ChipOptions.ofWord (ChipOptions.ofSlave s divider).toWord = ChipOptions.ofSlave s divider := by
  rw [ChipOptions.ofWord_toWord]
  exact ChipOptions.clipped_of_small _ timed.idle timed.trail timed.lead

namespace ChipOptions

/-- The word of some options is read as these options with the timing counts modulo 16, so as the
    same options exactly if the counts are at most 15; and a word is written again as it was, but
    for its spare bit. The options of a slave that was checked, with the divider that the check
    gave and at the rate that comes of it, are read back as they were; and for two such slaves, on
    any hosts, the words are the same exactly if the slaves have the same divider, timing, sampling
    and mode. -/
theorem words_tell_slaves_apart :
    (∀ o : ChipOptions,
      ofWord o.toWord = { o with idle := o.idle % 16, trail := o.trail % 16, lead := o.lead % 16 } ∧
        (ofWord o.toWord = o ↔ o.idle ≤ 15 ∧ o.trail ≤ 15 ∧ o.lead ≤ 15)) ∧
      (∀ w : Word, (ofWord w).toWord = spareField.put 0 w) ∧
      (∀ (s : Slave) (lines : UInt8) (sys : UInt32) (d : UInt16), s.validate lines sys = .ok d →
        ofWord (ofSlave (s.realized sys d) d).toWord = ofSlave (s.realized sys d) d) ∧
      ∀ (s t : Slave) (lines lines' : UInt8) (sys sys' : UInt32) (d e : UInt16),
        s.validate lines sys = .ok d → t.validate lines' sys' = .ok e →
          ((ofSlave (s.realized sys d) d).toWord = (ofSlave (t.realized sys' e) e).toWord ↔
            d = e ∧ s.idle = t.idle ∧ s.trail = t.trail ∧ s.lead = t.lead ∧
              s.fullCycle = t.fullCycle ∧ s.mode = t.mode) := by
  -- the rate of a slave is no part of its options
  have back (s : Slave) (lines : UInt8) (sys : UInt32) (d : UInt16)
      (valid : s.validate lines sys = .ok d) :
      ofWord (ofSlave (s.realized sys d) d).toWord = ofSlave (s.realized sys d) d :=
    (s.timed_of_validate lines sys d valid).ofWord_toWord d
  refine ⟨fun o => ⟨?_, ?_⟩, toWord_ofWord, back, ?_⟩
  · rw [ofWord_toWord, clipped_eq]
  · rw [ofWord_toWord]
    exact o.clipped_eq_self_iff
  · intro s t lines lines' sys sys' d e first second
    refine Iff.trans ⟨fun same => ?_, congrArg toWord⟩ (ofSlave_eq_iff _ _ d e)
    calc ofSlave (s.realized sys d) d
      _ = ofWord (ofSlave (s.realized sys d) d).toWord := (back s lines sys d first).symm
      _ = ofWord (ofSlave (t.realized sys' e) e).toWord := by rw [same]
      _ = ofSlave (t.realized sys' e) e := back t lines' sys' e second

theorem words_tell_slaves_apart_rounded :
    let sys : UInt32 := 100000000
    let s : Slave :=
      { csid := 1, freq := 9999999, phase := .second, idle := 15, lead := 2, trail := 3,
        fullCycle := true }
    let t : Slave := { s with freq := 9100000 }
    let u : Slave := { s with lead := 3, trail := 2 }
    let word (s : Slave) : Word := (ofSlave (s.realized sys 5) 5).toWord
    s.validate 2 sys = .ok 5 ∧ t.validate 2 sys = .ok 5 ∧ u.validate 2 sys = .ok 5 ∧
      ofWord (word s) = ofSlave (s.realized sys 5) 5 ∧ word s = word t ∧ word s ≠ word u ∧
      ofWord (toWord { idle := 17 }) = { idle := 1 } ∧
      (ofWord 0xffffffff).toWord = spareField.put 0 0xffffffff := by
  intro sys s t u word
  obtain ⟨clips, spares, back, apart⟩ := words_tell_slaves_apart
  have first : s.validate 2 sys = .ok 5 := by decide
  have second : t.validate 2 sys = .ok 5 := by decide
  have third : u.validate 2 sys = .ok 5 := by decide
  refine ⟨first, second, third, back s 2 sys 5 first, ?_, ?_, (clips _).1, spares _⟩
  · exact (apart s t 2 2 sys sys 5 5 first second).mpr ⟨rfl, rfl, rfl, rfl, rfl, rfl⟩
  · intro same
    obtain ⟨-, -, trail, -⟩ := (apart s u 2 2 sys sys 5 5 first third).mp same
    exact absurd trail (by decide)

end ChipOptions

end SerialBus
