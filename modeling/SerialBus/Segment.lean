namespace SerialBus

inductive Direction
  | dummy
  | rxOnly
  | txOnly
  | bidir
  deriving DecidableEq, Repr

inductive Speed
  | standard
  | dual
  | quad
  deriving DecidableEq, Repr

namespace Speed

def code : Speed → Nat
  | standard => 0
  | dual => 1
  | quad => 2

def ofCode? : Nat → Option Speed
  | 0 => some standard
  | 1 => some dual
  | 2 => some quad
  | _ => none

theorem ofCode?_code (s : Speed) : ofCode? s.code = some s := by
  cases s <;> rfl

end Speed

namespace Direction

def code : Direction → Nat
  | dummy => 0
  | rxOnly => 1
  | txOnly => 2
  | bidir => 3

def ofCode? : Nat → Option Direction
  | 0 => some dummy
  | 1 => some rxOnly
  | 2 => some txOnly
  | 3 => some bidir
  | _ => none

theorem ofCode?_code (d : Direction) : ofCode? d.code = some d := by
  cases d <;> rfl

def usesTx : Direction → Bool
  | txOnly | bidir => true
  | _ => false

def usesRx : Direction → Bool
  | rxOnly | bidir => true
  | _ => false

/-- Both directions at once need one line each way, so they exclude the wider speeds. -/
def allows : Direction → Speed → Bool
  | bidir, .dual | bidir, .quad => false
  | _, _ => true

end Direction

def wordsFor (bytes : Nat) : Nat := (bytes + 3) / 4

/-- `len` counts bytes, or clock cycles where nothing is moved. -/
structure Segment where
  direction : Direction
  speed : Speed
  len : UInt32
  deriving DecidableEq, Repr

inductive SegmentError
  | empty
  | tooMany
  | invalidMode (index : Nat)
  | invalidLength (index : Nat)
  deriving DecidableEq, Repr

structure WordCounts where
  tx : Nat := 0
  rx : Nat := 0
  deriving DecidableEq, Repr

namespace Segment

def maxCount : Nat := 16

def maxLen : UInt32 := 16777215

def tx (len : UInt32) : Segment := ⟨.txOnly, .standard, len⟩

def rx (len : UInt32) : Segment := ⟨.rxOnly, .standard, len⟩

def bidir (len : UInt32) : Segment := ⟨.bidir, .standard, len⟩

def dummy (cycles : UInt32) : Segment := ⟨.dummy, .standard, cycles⟩

def words (s : Segment) : Nat := wordsFor s.len.toNat

def txWords (s : Segment) : Nat := if s.direction.usesTx then s.words else 0

def rxWords (s : Segment) : Nat := if s.direction.usesRx then s.words else 0

def validateAt (s : Segment) (index : Nat) : Except SegmentError Unit :=
  if s.direction.allows s.speed = false then .error (.invalidMode index)
  else if s.len = 0 ∨ maxLen < s.len then .error (.invalidLength index)
  else .ok ()

def validate (s : Segment) : Except SegmentError Unit := s.validateAt 0

def countFrom (index : Nat) : List Segment → Except SegmentError WordCounts
  | [] => .ok {}
  | s :: rest => do
    s.validateAt index
    let counts ← countFrom (index + 1) rest
    return { tx := s.txWords + counts.tx, rx := s.rxWords + counts.rx }

/-- Check a whole list and total the words it moves. -/
def validateAll (segments : List Segment) : Except SegmentError WordCounts :=
  if segments = [] then .error .empty
  else if maxCount < segments.length then .error .tooMany
  else countFrom 0 segments

def bounded (segments : List Segment) : Except SegmentError (List Segment) :=
  if maxCount < segments.length then .error .tooMany else .ok segments

end Segment

end SerialBus
