import Wiring.Method

/-!
Contract: methods given as lists of statements.

A scripted method goes through its statements and returns the ops that they yield. It is metered: every call
is counted before its first statement, and calls beyond the limit fail, which ends a graph that feeds a
computation with its own outputs.
-/

namespace Wiring

/-- The space of an op that a statement records. -/
inductive OutputSpace where
  | sameAs (input : Nat)
  | flipped (input : Nat)
  | fixed (space : Space)

/-- What a statement appends to the label of its op. -/
inductive LabelSuffix where
  | key
  | component
  | backend
  /-- The labels of the inputs. -/
  | labels
deriving DecidableEq, Repr

inductive Statement where
  | give (input : Nat)
  | giveAll
  | need (name : String)
  /-- Fails, or does so only in the call for one flat key. -/
  | fail (kind : ErrorKind) (text : String) (onlyForKey : Option String)
  /-- Records an op made from some inputs, or from all of them. -/
  | op (label : String) (inputs : Option (List Nat)) (space : OutputSpace) (suffix : Option LabelSuffix)

namespace Statement

def noSuchInput : Error :=
  .raised .computation "no such input"

def inputAt (inputs : List DataOp) (position : Nat) : Recording DataOp :=
  match inputs[position]? with
  | some input => return input
  | none => throw noSuchInput

def suffixText (context : MethodContext) (log : OpLog) (used : List DataOp) : LabelSuffix → String
  | .key => "@" ++ context.key.getD "-"
  | .component => "@" ++ context.component.describe
  | .backend => "@" ++ context.backend.label
  | .labels => String.join (used.map fun input => "@" ++ ((log.get? input.id).map OpRecord.label).getD "")

def outputSpace (inputs : List DataOp) : OutputSpace → Recording Space
  | .sameAs position => DataOp.space <$> inputAt inputs position
  | .flipped position => (fun input => input.space.flipTimeMajor) <$> inputAt inputs position
  | .fixed space => return space

/-- The ops that one statement yields. -/
def run (context : MethodContext) (inputs : List DataOp) : Statement → Recording (List DataOp)
  | .give position => do
      let input ← inputAt inputs position
      return [input]
  | .giveAll => return inputs
  | .need name => do
      let _ ← context.lookup name
      return []
  | .fail kind text onlyForKey =>
      if onlyForKey.all fun key => context.key = some key then throw (.raised kind text) else return []
  | .op label positions space suffix => do
      let used ← match positions with
        | some positions => positions.mapM (inputAt inputs)
        | none => pure inputs
      let space ← outputSpace inputs space
      let recorder ← get
      let suffix := (suffix.map (suffixText context recorder.log used)).getD ""
      let op ← context.record (label ++ suffix) (used.map DataOp.id) space
      return [op]

end Statement

/-- Calls of scripted methods that one build may make. -/
def callLimit : Nat := 100

def Method.ofScript (name : String) (inputs outputs : Nat) (body : List Statement) : Method where
  name := name
  inputs := inputs
  outputs := outputs
  run := fun context given => do
    let recorder ← get
    set { recorder with calls := recorder.calls + 1 }
    if callLimit ≤ recorder.calls then throw (.raised .computation "out of fuel")
    let yielded ← body.mapM (Statement.run context given)
    return yielded.flatten

end Wiring
