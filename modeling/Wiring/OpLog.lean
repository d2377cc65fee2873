import Wiring.Identifier
import Wiring.Space.Basic

/-!
Contract: the record of the ops of one build. An op gets its position as its identifier; records are only ever
added.
-/

namespace Wiring

/-- An op as methods see it: its identifier and the space of its value. -/
structure DataOp where
  id : OpId
  space : Space
deriving Inhabited

/-- What is known of an op besides its identifier. -/
structure OpRecord where
  label : String
  /-- The component whose computation made the op, or that received the placeholder. -/
  component : Option ComponentId
  inputs : List OpId
  space : Space
deriving Inhabited

/-- A record with the identifier that its op was given. -/
structure OpEntry extends OpRecord where
  id : OpId
deriving Inhabited

structure OpLog where
  entries : Array OpEntry := #[]
deriving Inhabited

namespace OpLog

def size (log : OpLog) : Nat :=
  log.entries.size

/-- The record at the position of the identifier. -/
def get? (log : OpLog) (id : OpId) : Option OpRecord :=
  log.entries[id.index]?.map OpEntry.toOpRecord

def records (log : OpLog) : Array OpRecord :=
  log.entries.map OpEntry.toOpRecord

/-- Adds a record; the op gets the next identifier. -/
def push (log : OpLog) (record : OpRecord) : DataOp × OpLog :=
  let id : OpId := ⟨log.size⟩
  (⟨id, record.space⟩, ⟨log.entries.push { record with id }⟩)

theorem size_push (log : OpLog) (record : OpRecord) : (log.push record).2.size = log.size + 1 := by
  simp [push, size]

/-- The record of a new op is found under its identifier. -/
theorem get?_push_self (log : OpLog) (record : OpRecord) :
    (log.push record).2.get? (log.push record).1.id = some record := by
  simp [push, get?, size]

/-- Earlier records stay where they are. -/
theorem get?_push_of_lt (log : OpLog) (record : OpRecord) {id : OpId} (earlier : id.index < log.size) :
    (log.push record).2.get? id = log.get? id := by
  have differ : id.index ≠ log.entries.size := Nat.ne_of_lt earlier
  simp [push, get?, Array.getElem?_push, differ]

def countLabel (log : OpLog) (label : String) : Nat :=
  (log.entries.filter fun entry => entry.label = label).size

end OpLog

end Wiring
