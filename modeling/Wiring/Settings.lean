import Wiring.Json.Reader
import Wiring.Json.Record
import Wiring.Text.Term
import Wiring.Text.CharClass

/-!
Contract: the settings of components and builds, with their JSON form.

`Settings` are the four switches of a computation; `Options` override some of them. A component is configured
by its scope, the name it has among its siblings, and hints that the graph only carries.
-/

namespace Wiring

/-- How a computation treats inputs that are containers. -/
structure Settings where
  /-- Look into containers at all. -/
  flattenOps : Bool := true
  /-- Call the method once per flat key. -/
  splitOps : Bool := false
  /-- Show the method the flat key it is called for. -/
  passKey : Bool := false
  /-- Put the outputs together again. -/
  unflattenOps : Bool := true
deriving DecidableEq, Repr, Inhabited

structure Options where
  flattenOps : Option Bool := none
  splitOps : Option Bool := none
  passKey : Option Bool := none
  unflattenOps : Option Bool := none
deriving DecidableEq, Repr, Inhabited

/-- Options that set every switch. -/
def Options.ofSettings (settings : Settings) : Options where
  flattenOps := settings.flattenOps
  splitOps := settings.splitOps
  passKey := settings.passKey
  unflattenOps := settings.unflattenOps

/-- The switches that the options set, and the defaults for the others. -/
def Options.resolve (options : Options) (defaults : Settings) : Settings where
  flattenOps := options.flattenOps.getD defaults.flattenOps
  splitOps := options.splitOps.getD defaults.splitOps
  passKey := options.passKey.getD defaults.passKey
  unflattenOps := options.unflattenOps.getD defaults.unflattenOps

/-- Options that set every switch leave nothing to the defaults. -/
theorem Options.resolve_ofSettings (settings defaults : Settings) :
    (Options.ofSettings settings).resolve defaults = settings := rfl

structure ComponentConfig where
  scope : String := ""
  /-- Name among siblings; the scope where it is missing. -/
  name : Option String := none
  device : Option String := none
  isGlobal : Bool := false
  settings : Settings := {}
deriving DecidableEq, Repr, Inhabited

def ComponentConfig.resolvedName (config : ComponentConfig) : String :=
  config.name.getD config.scope

/-- Word characters and dashes; a scope may be empty. -/
def isScope (scope : String) : Bool :=
  scope.toList.all fun c => CharClass.isWord c || c = '-'

structure BuildConfig where
  /-- Report components that stay incomplete instead of failing. -/
  allowIncomplete : Bool := false
deriving DecidableEq, Repr, Inhabited

/-! ### JSON -/

namespace Settings

def names : List String :=
  ["flatten_ops", "split_ops", "add_auto_key_as_first_param", "unflatten_ops"]

def values (settings : Settings) : List Bool :=
  [settings.flattenOps, settings.splitOps, settings.passKey, settings.unflattenOps]

def toJson (settings : Settings) : Json :=
  .object (names.zip (settings.values.map .bool))

def ofJson? (json : Json) : Option Settings := do
  match ← Json.fields? names json with
  | [flattenOps, splitOps, passKey, unflattenOps] =>
      return {
        flattenOps := ← Json.fieldOr true Json.asBool? flattenOps
        splitOps := ← Json.fieldOr false Json.asBool? splitOps
        passKey := ← Json.fieldOr false Json.asBool? passKey
        unflattenOps := ← Json.fieldOr true Json.asBool? unflattenOps }
  | _ => none

def toTerm (settings : Settings) : Term :=
  .record "ComputationSettings" (names.zip (settings.values.map .bool)) false

end Settings

namespace ComponentConfig

def toJson (config : ComponentConfig) : Json :=
  .object
    [("scope", .string config.scope),
      ("name", .ofOption .string config.name),
      ("device", .ofOption .string config.device),
      ("global_component", .bool config.isGlobal),
      ("computation_settings", config.settings.toJson)]

def ofJson? (json : Json) : Option ComponentConfig := do
  match ← Json.fields? ["scope", "name", "device", "global_component", "computation_settings"] json with
  | [scope, name, device, isGlobal, settings] =>
      return {
        scope := ← Json.fieldOr "" Json.asString? scope
        name := ← Json.fieldOr none (Json.asOption? Json.asString?) name
        device := ← Json.fieldOr none (Json.asOption? Json.asString?) device
        isGlobal := ← Json.fieldOr false Json.asBool? isGlobal
        settings := ← Json.fieldOr {} Settings.ofJson? settings }
  | _ => none

def parse? (text : String) : Option ComponentConfig :=
  (Json.parse? text).bind ofJson?

def toTerm (config : ComponentConfig) : Term :=
  .record "ComponentConfig"
    [("scope", .quoted config.scope),
      ("name", .option (config.name.map .quoted)),
      ("device", .option (config.device.map .quoted)),
      ("global_component", .bool config.isGlobal),
      ("computation_settings", config.settings.toTerm)]
    false

end ComponentConfig

namespace BuildConfig

def toJson (config : BuildConfig) : Json :=
  .object [("allow_incomplete", .bool config.allowIncomplete)]

def ofJson? (json : Json) : Option BuildConfig := do
  match ← Json.fields? ["allow_incomplete"] json with
  | [allowIncomplete] => return { allowIncomplete := ← Json.fieldOr false Json.asBool? allowIncomplete }
  | _ => none

end BuildConfig

end Wiring
