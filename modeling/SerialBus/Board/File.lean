import SerialBus.Datum.Schema
import SerialBus.Document.Reader

namespace SerialBus.Board

def ofToml (text : String) : Except ConfigError Board :=
  match (Document.read? text).bind (ofDatum .toml) with
  | none => .error .unreadable
  | some board => do
    board.validate
    return board

end SerialBus.Board
