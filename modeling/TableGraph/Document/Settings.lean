import TableGraph.Config
import TableGraph.Json.Structure

/-!
# Settings as they are stored

Settings are read from a value like the structures of a document, or straight from a text, where none
may be given twice. A setting that is missing keeps its default, one that is null or of another type is
refused.
-/

namespace TableGraph.Config

open Json (withDefault)

def fieldNames : List String :=
  ["verbosity", "exportLimit", "sampleLimit", "debug", "debugJson", "blankNotFirst", "blankNotLast"]

def ofFields? (fields : List (Option Json)) : Option Config := do
  let default : Config := {}
  match fields with
  | [verbosity, exportLimit, sampleLimit, debug, debugJson, notFirst, notLast] =>
    return { verbosity := ← withDefault default.verbosity (Json.natOfBits? 8) verbosity
             exportLimit := ← withDefault default.exportLimit (Json.natOfBits? 64) exportLimit
             sampleLimit := ← withDefault default.sampleLimit (Json.natOfBits? 64) sampleLimit
             debug := ← withDefault default.debug Json.bool? debug
             debugJson := ← withDefault default.debugJson Json.bool? debugJson
             blankNotFirst := ← withDefault default.blankNotFirst Json.string? notFirst
             blankNotLast := ← withDefault default.blankNotLast Json.string? notLast }
  | _ => none

def ofJson? (v : Json) : Option Config :=
  v.fields? fieldNames >>= ofFields?

def ofText? (text : String) : Option Config :=
  Json.fieldsOfText? fieldNames text >>= ofFields?

def toJson (c : Config) : Json :=
  .object
    [ ("verbosity", .ofNat c.verbosity), ("exportLimit", .ofNat c.exportLimit),
      ("sampleLimit", .ofNat c.sampleLimit), ("debug", .bool c.debug),
      ("debugJson", .bool c.debugJson), ("blankNotFirst", .string c.blankNotFirst),
      ("blankNotLast", .string c.blankNotLast) ]

end TableGraph.Config
