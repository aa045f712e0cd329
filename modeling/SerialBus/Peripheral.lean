namespace SerialBus

inductive PeripheralId
  | flash
  | host
  | host2
  deriving DecidableEq, Repr

namespace PeripheralId

def all : List PeripheralId := [flash, host, host2]

def index : PeripheralId → Nat
  | flash => 0
  | host => 1
  | host2 => 2

def ofIndex? : Nat → Option PeripheralId
  | 0 => some flash
  | 1 => some host
  | 2 => some host2
  | _ => none

theorem ofIndex?_index (id : PeripheralId) : ofIndex? id.index = some id := by
  cases id <;> rfl

end PeripheralId

structure Trio (α : Type) where
  flash : α
  host : α
  host2 : α
  deriving DecidableEq, Repr

namespace Trio

variable {α β : Type}

def get (t : Trio α) : PeripheralId → α
  | .flash => t.flash
  | .host => t.host
  | .host2 => t.host2

def set (t : Trio α) (id : PeripheralId) (a : α) : Trio α :=
  match id with
  | .flash => { t with flash := a }
  | .host => { t with host := a }
  | .host2 => { t with host2 := a }

def ofFn (f : PeripheralId → α) : Trio α := ⟨f .flash, f .host, f .host2⟩

def toList (t : Trio α) : List α := [t.flash, t.host, t.host2]

@[simp] theorem get_set_self (t : Trio α) (id : PeripheralId) (a : α) :
    (t.set id a).get id = a := by
  cases id <;> rfl

theorem get_set_of_ne (t : Trio α) {id other : PeripheralId} (a : α) (h : other ≠ id) :
    (t.set id a).get other = t.get other := by
  cases id <;> cases other <;> first | rfl | exact absurd rfl h

theorem ext_get {t u : Trio α} (same : ∀ id, t.get id = u.get id) : t = u := by
  cases t
  cases u
  cases same .flash
  cases same .host
  cases same .host2
  rfl

@[simp] theorem get_ofFn (f : PeripheralId → α) (id : PeripheralId) : (ofFn f).get id = f id := by
  cases id <;> rfl

end Trio

end SerialBus
