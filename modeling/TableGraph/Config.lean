import TableGraph.BlankLabel.Rule

/-!
# Settings

What a user may set for applying transforms: how much is previewed, when an export is passed on, and
which characters labels of blank nodes may not start or end with.
-/

namespace TableGraph

structure Config where
  /-- How much is told about progress. -/
  verbosity : Nat := 0
  /-- How many triples an export holds back before it passes them on. -/
  exportLimit : Nat := 10737418
  /-- How many rows or records a preview visits; all of them if it is zero. -/
  sampleLimit : Nat := 20
  /-- Whether the emission of triples is traced. -/
  debug : Bool := false
  /-- Whether documents are traced as they are loaded. -/
  debugJson : Bool := false
  /-- The class of the characters that a label may not start with. -/
  blankNotFirst : String := LabelRule.defaultNotFirst
  /-- The class of the characters that a label may not end with. -/
  blankNotLast : String := LabelRule.defaultNotLast
  deriving DecidableEq, Repr

namespace Config

def isVerbose (c : Config) : Bool := 0 < c.verbosity || c.debug

/-- The rule for labels that the settings describe. Where nothing else is set, no class is read. -/
def labelRule (c : Config) (read : ClassReader := BlankLabel.CharacterSet.ofText?) :
    Except TransformError LabelRule :=
  if c.blankNotFirst = LabelRule.defaultNotFirst && c.blankNotLast = LabelRule.defaultNotLast then
    .ok .standard
  else LabelRule.ofTexts c.blankNotFirst c.blankNotLast read

end Config

end TableGraph
