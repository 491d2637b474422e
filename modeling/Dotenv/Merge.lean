import Dotenv.Expansion
import Dotenv.Settings
import Dotenv.Source

/-!
# Merging definitions

Sources are merged in order, and the definitions of a source in order.  Each
value is expanded against what was defined before it, so a definition can refer
to earlier ones alone and later ones change nothing in it.  The last definition
of a name wins.
-/

namespace Dotenv

/-- A map after a merge, with the fault that ended the merge early. -/
structure Merge where
  map : VariableMap
  fault : Option Fault
  deriving DecidableEq

namespace VariableMap

/-- Define a variable of an origin by its value expanded against the map. -/
def define (settings : Settings) (origin : Text) (map : VariableMap) (entry : Variable) :
    Except Fault VariableMap :=
  (entry.value.resolve settings.strictReferences map (some entry.name) origin).map
    (map.insert entry.name)

/-- Define variables of an origin in order, up to the first that fails. -/
def defineAll (settings : Settings) (origin : Text) (map : VariableMap) :
    List Variable → Merge
  | [] => ⟨map, none⟩
  | entry :: rest =>
    match map.define settings origin entry with
    | .ok defined => defineAll settings origin defined rest
    | .error fault => ⟨map, some fault⟩

/-- Add the definitions of a source to a map.  All of it is read before any of it is
defined. -/
def addSource (settings : Settings) (tree : FileTree) (map : VariableMap)
    (source : Source) : Merge :=
  match source.definitions tree settings.allowBlankLines with
  | .error fault => ⟨map, some fault⟩
  | .ok listed => map.defineAll settings source.origin listed

/-- Add the definitions of sources to a map in order, up to the first that fails. -/
def addSources (settings : Settings) (tree : FileTree) (map : VariableMap) :
    List Source → Merge
  | [] => ⟨map, none⟩
  | source :: rest =>
    let merged := map.addSource settings tree source
    match merged.fault with
    | none => addSources settings tree merged.map rest
    | some _ => merged

/-- The map of sources, if all of them can be merged. -/
def ofSources (settings : Settings) (tree : FileTree) (sources : List Source) :
    Except Fault VariableMap :=
  let merged := addSources settings tree .empty sources
  match merged.fault with
  | none => .ok merged.map
  | some fault => .error fault

end VariableMap

end Dotenv
