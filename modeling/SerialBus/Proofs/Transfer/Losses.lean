import SerialBus.Word

namespace SerialBus

/-- Words that were dropped: those that commands had still to send and to receive, and those that
    waited in the transmit and in the receive queue. -/
structure Losses where
  unsent : Nat := 0
  unreceived : Nat := 0
  tx : Nat := 0
  rx : Nat := 0
  deriving DecidableEq, Repr

namespace Losses

instance : Add Losses where
  add a b := ⟨a.unsent + b.unsent, a.unreceived + b.unreceived, a.tx + b.tx, a.rx + b.rx⟩

theorem add_none (l : Losses) : l + {} = l := rfl

theorem none_add (l : Losses) : ({} : Losses) + l = l := by
  change Losses.mk (0 + _) (0 + _) (0 + _) (0 + _) = l
  simp only [Nat.zero_add]

theorem add_assoc (k l m : Losses) : k + l + m = k + (l + m) := by
  change Losses.mk (_ + _ + _) (_ + _ + _) (_ + _ + _) (_ + _ + _) = Losses.mk _ _ _ _
  simp only [Nat.add_assoc]
  rfl

end Losses

/-- `rest` is what is left of `all`, in its order, after `lost` of its words were dropped. -/
structure Survives (lost : Nat) (rest all : List Word) : Prop where
  sublist : rest.Sublist all
  count : rest.length + lost = all.length

namespace Survives

variable {lost : Nat} {rest all : List Word}

theorem refl (ws : List Word) : Survives 0 ws ws := ⟨.refl ws, rfl⟩

theorem none_iff : Survives 0 rest all ↔ rest = all :=
  ⟨fun survives => survives.sublist.eq_of_length survives.count, fun same => same ▸ refl rest⟩

theorem append (survives : Survives lost rest all) (ws : List Word) :
    Survives lost (rest ++ ws) (all ++ ws) := by
  have count := survives.count
  refine ⟨survives.sublist.append_right ws, ?_⟩
  simp only [List.length_append]
  omega

theorem sublist_left {waiting : List Word} (survives : Survives lost (rest ++ waiting) all) :
    rest.Sublist all :=
  (List.sublist_append_left rest waiting).trans survives.sublist

theorem drop {dropped : List Word} (survives : Survives lost (rest ++ dropped) all) :
    Survives (lost + dropped.length) rest all := by
  have count := survives.count
  refine ⟨survives.sublist_left, ?_⟩
  rw [List.length_append] at count
  omega

end Survives

end SerialBus
