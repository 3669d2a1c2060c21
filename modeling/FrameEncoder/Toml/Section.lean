import FrameEncoder.Toml.Text
import FrameEncoder.Toml.Value

/-!
# Sections of a document

A document is a list of sections, each with its key-value pairs, and this module joins them into
one table. What may be added to a table depends on how it came to be: a table that has a header of
its own, or is written in braces, takes nothing from elsewhere; one that a dotted key made takes
more dotted keys; one that only lies on the path of a header may still get a header.
-/

namespace FrameEncoder.Toml

/-- How a table came to be. -/
inductive Origin where
  /-- It lies on the path of a header. -/
  | implied
  /-- A dotted key made it. -/
  | dotted
  /-- It has a header of its own. -/
  | header
deriving DecidableEq, Repr

/-- A table under construction, or a value that takes nothing more. -/
inductive Node where
  | value (v : Value)
  | table (origin : Origin) (entries : List (String × Node))
  /-- The tables of repeated headers, in order. -/
  | tables (items : List (List (String × Node)))

/-- The entries of a table under construction. -/
abbrev Entries := List (String × Node)

namespace Entries

/-- Put a node in the place of a key's node, or at the end. -/
def put (key : String) (n : Node) : Entries → Entries
  | [] => [(key, n)]
  | (k, m) :: es => if k = key then (key, n) :: es else (k, m) :: put key n es

/-- Drop a key's node and put another at the end. -/
def renew (key : String) (n : Node) (es : Entries) : Entries :=
  es.filter (·.1 ≠ key) ++ [(key, n)]

/-- Add a value under a key that is not there yet. -/
def add? (es : Entries) (key : String) (v : Value) : Option Entries :=
  if (List.lookup key es).isSome then none else some (es ++ [(key, .value v)])

/-- Add a value in a table reached by a dotted key, `origin` telling how that table came to be. -/
def addDotted? (origin : Origin) (es : Entries) (key : String) (v : Value) :
    List String → Option Entries
  | [] => if origin = .dotted then es.add? key v else none
  | p :: path =>
    match List.lookup p es with
    | none => (addDotted? .dotted [] key v path).map fun t => es.put p (.table .dotted t)
    | some (.value _) => none
    | some (.table .header _) => none
    | some (.table o t) => (addDotted? o t key v path).map fun t => es.put p (.table o t)
    | some (.tables items) =>
      match items.getLast? with
      | none => none
      | some t =>
        (addDotted? .header t key v path).map fun t => es.put p (.tables (items.dropLast ++ [t]))

/-- Add a key-value pair to the table of the section it stands in. -/
def addPair? (es : Entries) (pair : Key × Value) : Option Entries :=
  match pair.1.path with
  | [] => es.add? pair.1.name pair.2
  | path => addDotted? .header es pair.1.name pair.2 path

/-- Change the table at the end of a header's path; of repeated tables the last one is meant. -/
def alterAt? (f : Entries → Option Entries) : List String → Entries → Option Entries
  | [], es => f es
  | p :: path, es =>
    match List.lookup p es with
    | none => (alterAt? f path []).map fun t => es.put p (.table .implied t)
    | some (.value _) => none
    | some (.table o t) => (alterAt? f path t).map fun t => es.put p (.table o t)
    | some (.tables items) =>
      match items.getLast? with
      | none => none
      | some t => (alterAt? f path t).map fun t => es.put p (.tables (items.dropLast ++ [t]))

end Entries

/-- What a section defines. -/
inductive Heading where
  /-- The document itself. -/
  | root
  | table (key : Key)
  /-- One more table of an array. -/
  | element (key : Key)
deriving DecidableEq, Repr

/-- A heading with the pairs below it, in order. -/
structure Section where
  heading : Heading
  pairs : List (Key × Value)

/-- Join a section into a document. A table that was only implied so far counts as defined by its
header, so it comes after what its parent held before. -/
def Section.join? (es : Entries) (s : Section) : Option Entries :=
  let fill (t : Entries) : Option Entries := s.pairs.foldlM Entries.addPair? t
  match s.heading with
  | .root => fill es
  | .table key =>
    Entries.alterAt? (fun es =>
      match List.lookup key.name es with
      | none => (fill []).map fun t => es.put key.name (.table .header t)
      | some (.table .implied t) => (fill t).map fun t => es.renew key.name (.table .header t)
      | some _ => none) key.path es
  | .element key =>
    Entries.alterAt? (fun es =>
      match List.lookup key.name es with
      | none => (fill []).map fun t => es.put key.name (.tables [t])
      | some (.tables items) => (fill []).map fun t => es.put key.name (.tables (items ++ [t]))
      | some _ => none) key.path es

mutual

/-- The value of a finished node. -/
def Node.toValue : Node → Value
  | .value v => v
  | .table _ es => .table (Node.toEntries es)
  | .tables items => .array (Node.toItems items)

/-- The values of the entries of a finished table. -/
def Node.toEntries : List (String × Node) → Table
  | [] => []
  | (k, n) :: es => (k, n.toValue) :: Node.toEntries es

/-- The values of finished repeated tables. -/
def Node.toItems : List (List (String × Node)) → List Value
  | [] => []
  | es :: items => .table (Node.toEntries es) :: Node.toItems items

end

/-- Join the sections of a document into its table. -/
def joinSections? (sections : List Section) : Option Table :=
  (sections.foldlM Section.join? []).map Node.toEntries

/-- Join pairs written in braces into a table. -/
def joinPairs? (pairs : List (Key × Value)) : Option Table :=
  (pairs.foldlM Entries.addPair? []).map Node.toEntries

end FrameEncoder.Toml
