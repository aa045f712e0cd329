import SerialBus.Word

namespace SerialBus

/-- A word whose bit `i` stands for the `i`-th of `names`. -/
structure FlagSet (names : List String) where
  bits : Word
  deriving DecidableEq, Repr

namespace FlagSet

variable {names : List String}

def empty : FlagSet names := ⟨0⟩

def all : FlagSet names := ⟨(BitVec.allOnes names.length).setWidth 32⟩

def truncate (w : Word) : FlagSet names := ⟨w &&& (all : FlagSet names).bits⟩

def isEmpty (s : FlagSet names) : Bool := s.bits == 0

def contains (s t : FlagSet names) : Bool := s.bits &&& t.bits == t.bits

def intersects (s t : FlagSet names) : Bool := s.bits &&& t.bits != 0

def inter (s t : FlagSet names) : FlagSet names := ⟨s.bits &&& t.bits⟩

def union (s t : FlagSet names) : FlagSet names := ⟨s.bits ||| t.bits⟩

def set (s t : FlagSet names) (on : Bool) : FlagSet names :=
  if on then ⟨s.bits ||| t.bits⟩ else ⟨s.bits &&& ~~~t.bits⟩

def members (s : FlagSet names) : List String :=
  names.zipIdx.filterMap fun (name, i) => if s.bits.getLsbD i then some name else none

end FlagSet

end SerialBus
