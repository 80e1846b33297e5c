import TableGraph.Table
import TableGraph.Transform

/-!
# Visiting a table

A visitor is told of the rows or the records of a table, one by one: `visit` handles one of them and
says whether that was enough, and an error ends the visit at once, without `finish`.
-/

namespace TableGraph

class Visitor (ν : Type) where
  /-- Get ready, once, before anything is visited. -/
  start : ν → ν
  /-- Visit a row or a record, and say whether to stop. -/
  visit : Scope → ν → Except TransformError Bool × ν
  /-- Conclude, once, after what was visited. -/
  finish : ν → Except TransformError Unit × ν

namespace Visitor

/-- Visit scopes in order, until one is enough or fails. -/
def visitEach [Visitor ν] : List Scope → ν → Except TransformError Unit × ν
  | [], v => (.ok (), v)
  | scope :: rest, v =>
    match visit scope v with
    | (.ok false, v) => visitEach rest v
    | (.ok true, v) => (.ok (), v)
    | (.error e, v) => (.error e, v)

/-- A whole visit: start, visit scopes in order, finish. -/
def visitAll [Visitor ν] (scopes : List Scope) (v : ν) : Except TransformError Unit × ν :=
  match visitEach scopes (start v) with
  | (.ok (), v) => finish v
  | (.error e, v) => (.error e, v)

end Visitor

namespace Table

def rowScopes (t : Table) : List Scope := (List.range t.rowCount).map .row

def recordScopes (t : Table) : List Scope := t.records.map .record

end Table

end TableGraph
