import IdlModel.Compilation

/-!
# Method names

The generated code flattens inheritance, so the methods of an interface and of
all its ancestors need different names.  The fifth stage gives a number to each
name that is already visible.

    interface A     { void foo(); };   // Foo
    interface B : A { void foo(); };   // Foo2
    interface C : B { void foo(); };   // Foo3

An interface is treated after its parent, and once.  The methods of objects come
before those of the interface itself.  For every visible name the stage keeps
the last number that was appended to it, starting with 1.  A method with a
visible name gets the least greater number that makes a name not yet visible,
and this name becomes visible too.
-/

namespace IdlModel

/-- The visible names, each with the last number appended to it. -/
abbrev NameCounters := Register String Nat

namespace NameCounters

/-- A name with a number. -/
def numbered (name : String) (n : Nat) : String := name ++ toString n

/-- The least number from `n` on that makes a name not yet visible.  `fuel` bounds
the search. -/
def firstFree (names : NameCounters) (name : String) : (fuel : Nat) → (n : Nat) → Nat
  | 0, n => n
  | fuel + 1, n =>
      if names.contains (numbered name n) then firstFree names name fuel (n + 1) else n

/-- The visible names behind a method, and the method with the name it gets.  Of
the numbers that are tried, one more than there are visible names, at least one
makes a new name. -/
def rename (names : NameCounters) (d : Method) : Method × NameCounters :=
  match names.find? d.name with
  | none => (d, names.put d.name 1)
  | some last =>
      let n := names.firstFree d.name (names.size + 1) (last + 1)
      let name := numbered d.name n
      ({ d with name }, (names.put d.name n).put name 1)

/-- Rename several methods in order. -/
def renameAll : NameCounters → List Method → List Method × NameCounters
  | names, [] => ([], names)
  | names, d :: ds =>
      let (d, names) := names.rename d
      let (ds, names) := names.renameAll ds
      (d :: ds, names)

/-- Rename the methods of an interface. -/
def renameMembers (names : NameCounters) (m : Members) : Members × NameCounters :=
  let (methods, names) := names.renameAll m.methods
  let (staticMethods, names) := names.renameAll m.staticMethods
  ({ m with methods, staticMethods }, names)

end NameCounters

/-- A symbol table in which some interfaces have their final method names. -/
structure MethodNaming where
  /-- The table. -/
  table : SymbolTable
  /-- The names visible in the interfaces that are done. -/
  done : Register EntityId NameCounters := Register.empty

namespace MethodNaming

/-- Name the methods of an interface behind the names that it inherits. -/
def nameOwn (id : EntityId) (d : Interface) (inherited : NameCounters) (s : MethodNaming) :
    NameCounters × MethodNaming :=
  let (members, names) := inherited.renameMembers d.members
  let table := s.table.modify id fun
    | .interface d => .interface { d with members }
    | e => e
  (names, { table, done := s.done.put id names })

/-- Name the methods of an interface, after those of its ancestors.  The answer
are the names visible in it.  `fuel` bounds the length of the chain, and `below`
are the interfaces that wait for this one. -/
def nameMethods : (fuel : Nat) → (below : List EntityId) → EntityId → MethodNaming →
    NameCounters × MethodNaming
  | 0, _, _, s => (Register.empty, s)
  | fuel + 1, below, id, s =>
      match s.done.find? id, s.table.entity? id with
      | some names, _ => (names, s)
      | none, some (.interface d) =>
          if below.contains id then (Register.empty, s)
          else
            let (inherited, s) :=
              match d.parent with
              | some (.entity .interface parent) => nameMethods fuel (id :: below) parent s
              | _ => (Register.empty, s)
            nameOwn id d inherited s
      | none, _ => (Register.empty, s)

/-- Name the methods of several interfaces in order. -/
def nameAll (ids : List EntityId) (s : MethodNaming) : MethodNaming :=
  ids.foldl (fun s id => (nameMethods (s.table.size + 1) [] id s).2) s

end MethodNaming

/-- Give the methods of all interfaces in use different names. -/
def resolveMethodNames : CompileM Unit := do
  modify fun c =>
    let ids := (c.table.idsOf .interface).filter c.table.isInUse
    { c with table := (MethodNaming.nameAll ids { table := c.table }).table }
  checkLimit

end IdlModel
