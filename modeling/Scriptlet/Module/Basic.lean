import Scriptlet.Code.Resolve
import Scriptlet.Heap.Collect
import Scriptlet.Machine.Basic
import Scriptlet.Native.Standard

/-!
# Modules

A module holds all that lives from one entry of the host to the next: what it can call, its heap, the words
it knows and its globals.
-/

namespace Scriptlet

open Budget (Limits Meter)
open Code (Draft)
open Fault (Malformed)

/-- A module. -/
structure Module where
  name : String
  library : Library := {}
  store : Store
  globals : Globals := {}
  deriving Inhabited

namespace Module

/-- A module without globals whose use is metered. -/
def create (name : String) (meter : Meter) : Module :=
  { name, store := { heap := .empty meter } }

/-- The heap of a module. -/
def heap (m : Module) : Heap := m.store.heap

/-- The names of the globals, in the order in which they were first assigned. -/
def names (m : Module) : List String := m.globals.vars.keys

/-- Adds words to the lexicon. -/
def learn (m : Module) (w : String) : Module :=
  { m with store := { m.store with lexicon := m.store.lexicon.learn w } }

/-- Gives a host function a global name. -/
def provide (m : Module) (name : String) (native : HostFunction) : Module :=
  { m with library := m.library.addBuiltin name native }.learn name

/-- Gives a standard host function a global name. -/
def addBuiltin (m : Module) (name : String) (native : Native) : Module := m.provide name native

/-- Makes a host function an attribute of the values of a type. -/
def addMethod (m : Module) (type : ValueType) (attr : String) (native : HostFunction) : Module :=
  { m with library := m.library.addMethod type attr native }.learn attr

/-- Gives the module every host function under its own name, and the methods of lists, strings, dictionaries
and structs. -/
def addStandardNatives (m : Module) : Module :=
  let m := Native.all.foldl (fun m n => m.addBuiltin n.name n) m
  let methods : List (ValueType × Native) :=
    [(.list, .append), (.list, .clear), (.string, .upper), (.dict, .describe), (.struct, .describe)]
  methods.foldl (fun m e => m.addMethod e.1 e.2.name e.2) m

/-- Resolves a piece of program. If it is refused, only the lexicon has changed. -/
def resolve {α : Type} (m : Module) (resolver : Draft → Except Malformed α × Draft) : Except Malformed α × Module :=
  let ⟨name, ⟨functions, natives, builtins, methods⟩, ⟨heap, lexicon⟩, globals⟩ := m
  let (result, ⟨lexicon, functions⟩) := resolver { lexicon, functions }
  (result, ⟨name, ⟨functions, natives, builtins, methods⟩, ⟨heap, lexicon⟩, globals⟩)

/-- Frees all heap objects that no global reaches, and says how many. -/
def collect (m : Module) : Nat × Module :=
  let (freed, heap) := m.heap.collect m.globals.roots
  (freed, { m with store := { m.store with heap } })

/-- Collects if it is time to. -/
def collectIfDue (m : Module) : Module :=
  if m.heap.collectionDue then m.collect.2 else m

/-- Makes the module read-only: its globals, and the lists and dictionaries that they reach. -/
def freeze (m : Module) : Module :=
  { m with
    store := { m.store with heap := m.heap.freezeFrom m.globals.roots }
    globals := { m.globals with frozen := true } }

end Module

end Scriptlet
