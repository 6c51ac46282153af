import AlgebraicData.Settings.Basic
import AlgebraicData.Text.Quoted
import AlgebraicData.Document.Statement

/-!
# Settings from a document

A TOML document sets options by key.  Keys are looked at in increasing order, whatever their order
in the document, and the first one that does not fit is reported.
-/

namespace AlgebraicData

/-- The kind of value that a key takes. -/
inductive SettingKind where
  | string
  | boolean
deriving DecidableEq, Repr

/-- Why a document sets no options. -/
inductive SettingsError where
  /-- It is not well-formed TOML. -/
  | malformed
  /-- No option has this key. -/
  | unknownKey (key : String)
  /-- The value is of another kind than the key takes. -/
  | wrongKind (found : Document.Value) (expected : SettingKind)

/-- The keys of a document. -/
def settingKeys : List String :=
  ["tag_name", "fold_prefix", "matchee_name", "handlers_name", "emit_accessors", "emit_equality"]

/-! ## Messages -/

/-- The kind in words. -/
def SettingKind.text : SettingKind → String
  | .string => "a string"
  | .boolean => "a boolean"

/-- A value in words. -/
def settingValueText : Document.Value → String
  | .string value => "string " ++ Text.excerpt value.toList
  | .integer value => "integer `" ++ toString value ++ "`"
  | .float value => "floating point `" ++ value.text ++ "`"
  | .boolean value => "boolean `" ++ (if value then "true" else "false") ++ "`"
  | .array _ | .tables _ => "sequence"
  | .table _ _ | .dateTime _ => "map"

/-- The error in words. -/
def SettingsError.message : SettingsError → String
  | .malformed => "not a TOML document"
  | .unknownKey key =>
    "unknown field `" ++ key ++ "`, expected one of " ++
      ", ".intercalate (settingKeys.map fun key => "`" ++ key ++ "`")
  | .wrongKind found expected =>
    "invalid type: " ++ settingValueText found ++ ", expected " ++ expected.text

namespace Settings

/-! ## Reading -/

/-- The text of a string. -/
def readString : Document.Value → Except SettingsError String
  | .string value => .ok value
  | value => .error (.wrongKind value .string)

/-- The value of a boolean. -/
def readBoolean : Document.Value → Except SettingsError Bool
  | .boolean value => .ok value
  | value => .error (.wrongKind value .boolean)

/-- Set the option of a key. -/
def set (settings : Settings) (key : String) (value : Document.Value) :
    Except SettingsError Settings :=
  match key with
  | "tag_name" => do return { settings with tagName := ← readString value }
  | "fold_prefix" => do return { settings with foldName := ← readString value }
  | "matchee_name" => do return { settings with matcheeName := ← readString value }
  | "handlers_name" => do return { settings with handlersName := ← readString value }
  | "emit_accessors" => do return { settings with emitAccessors := ← readBoolean value }
  | "emit_equality" => do return { settings with emitEquality := ← readBoolean value }
  | key => .error (.unknownKey key)

/-- The settings of a document. -/
def ofDocument (text : String) : Except SettingsError Settings :=
  match Document.read? text with
  | none => .error .malformed
  | some entries =>
    (entries.mergeSort fun a b => !(b.1 < a.1)).foldlM (fun settings (key, value) =>
      settings.set key value) {}

/-- The settings of a document, or what is wrong with it in words. -/
def load (text : String) : Except String Settings :=
  (ofDocument text).mapError (·.message)

end Settings

end AlgebraicData
