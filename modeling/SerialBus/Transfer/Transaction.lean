import SerialBus.Transfer.Buffers

namespace SerialBus

structure Transaction where
  segments : List Segment
  buffers : Buffers
  deriving DecidableEq, Repr

namespace Transaction

def tx (buffer : Buffer) (len : UInt32) : Transaction where
  segments := [.tx len]
  buffers := { tx := some buffer, txLen := wordsFor len.toNat }

def rx (buffer : Buffer) (len : UInt32) : Transaction where
  segments := [.rx len]
  buffers := { rx := some buffer, rxLen := wordsFor len.toNat }

def bidir (tx rx : Buffer) (len : UInt32) : Transaction where
  segments := [.bidir len]
  buffers :=
    { tx := some tx, txLen := wordsFor len.toNat, rx := some rx, rxLen := wordsFor len.toNat }

def generic (segments : List Segment) (tx rx : Option Buffer) : Except Failure Transaction :=
  let refuse := fun (e : SegmentError) => Failure.mk (.ofSegment e) { tx, rx }
  match Segment.validateAll segments with
  | .error e => .error (refuse e)
  | .ok counts =>
    match Segment.bounded segments with
    | .error e => .error (refuse e)
    | .ok segments =>
      .ok { segments, buffers := { tx, txLen := counts.tx, rx, rxLen := counts.rx } }

def segmentError (segments : List Segment) : SegmentError → TransferError
  -- a bad length of the only segment is a bad length of the transaction
  | .invalidLength index =>
    if segments.length = 1 then .lengthInvalid else .ofSegment (.invalidLength index)
  | e => .ofSegment e

def validate (t : Transaction) : Except TransferError Unit :=
  match Segment.validateAll t.segments with
  | .error e => .error (segmentError t.segments e)
  | .ok _ => t.buffers.check

end Transaction

end SerialBus
