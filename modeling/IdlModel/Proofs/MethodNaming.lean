import IdlModel.Proofs.Renaming
import IdlModel.Proofs.Resolved
import IdlModel.Proofs.Runs

/-!
# Distinct method names

What the numbers appended to method names achieve.

*Counters.*  The keys of the counters are the visible names.  A method gets a
name that is not yet visible, and this name becomes visible: `rename_fresh` and
`keys_rename`.  One of the numbers tried is free, for they make more names than
there are visible ones.

*Lineages.*  `Naming` holds while interfaces are treated.  For one that is done,
the keys of its counters are the names of its methods and of those of all its
ancestors, and these names are distinct.  Only an interface that is not done is
changed, so the names of those that are done stay.
-/

namespace IdlModel

/-! ## Counters -/

namespace NameCounters

variable {names : NameCounters} {name : String} {d : Method}

theorem numbered_injective {m n : Nat} (h : numbered name m = numbered name n) : m = n := by
  have hdigits : Nat.toDigits 10 m = Nat.toDigits 10 n := by
    have hlist := congrArg String.toList ((String.append_right_inj name).mp h)
    simpa only [Nat.toString_eq_repr, Nat.toList_repr] using hlist
  have hread := congrArg (fun digits => Nat.ofDigitChars 10 digits 0) hdigits
  simpa using hread

/-- If the search fails, all names that it tried are visible. -/
theorem mem_keys_of_firstFree {fuel n : Nat}
    (h : numbered name (names.firstFree name fuel n) ∈ names.keys) :
    ∀ i ≤ fuel, numbered name (n + i) ∈ names.keys := by
  induction fuel generalizing n with
  | zero =>
    intro i hi
    rw [Nat.le_zero.mp hi]
    exact h
  | succ fuel ih =>
    unfold firstFree at h
    split at h
    next hn =>
      intro i hi
      cases i with
      | zero => exact (Register.contains_iff _ _).mp hn
      | succ i =>
          have := ih h i (Nat.le_of_succ_le_succ hi)
          rwa [Nat.add_right_comm] at this
    next hn => exact absurd ((Register.contains_iff _ _).mpr h) hn

/-- The search finds a name that is not visible. -/
theorem firstFree_fresh (names : NameCounters) (name : String) (n : Nat) :
    numbered name (names.firstFree name (names.size + 1) n) ∉ names.keys := by
  intro h
  have htried : ((List.range (names.size + 1)).map fun i => numbered name (n + i)) ⊆ names.keys := by
    intro k hk
    obtain ⟨i, hi, rfl⟩ := List.mem_map.mp hk
    exact mem_keys_of_firstFree h i (Nat.le_of_lt (List.mem_range.mp hi))
  have hnodup : ((List.range (names.size + 1)).map fun i => numbered name (n + i)).Nodup := by
    refine List.nodup_range.map fun i j hij => ?_
    exact Nat.add_left_cancel (numbered_injective hij)
  have hlength := (List.subperm_of_subset hnodup htried).length_le
  rw [List.length_map, List.length_range, Register.keys, List.length_map] at hlength
  exact Nat.not_succ_le_self _ hlength

theorem rename_fresh (names : NameCounters) (d : Method) : (names.rename d).1.name ∉ names.keys := by
  unfold rename
  split
  next hfree => exact (Register.find?_eq_none_iff _ _).mp hfree
  next last _ => exact firstFree_fresh names d.name (last + 1)

theorem keys_rename (names : NameCounters) (d : Method) (k : String) :
    k ∈ (names.rename d).2.keys ↔ k ∈ names.keys ∨ k = (names.rename d).1.name := by
  unfold rename
  split
  next => rw [Register.mem_keys_put, or_comm]
  next last hlast =>
    simp only [Register.mem_keys_put]
    have hmem := Register.mem_keys_of_find? hlast
    constructor
    · rintro (rfl | rfl | h)
      · exact .inr rfl
      · exact .inl hmem
      · exact .inl h
    · rintro (h | rfl)
      · exact .inr (.inr h)
      · exact .inl rfl

/-- A rename leaves the outline of a method alone. -/
theorem outline_rename (names : NameCounters) (d : Method) :
    (names.rename d).1.outline = d.outline := by
  unfold rename
  split <;> rfl

theorem keys_renameAll (names : NameCounters) (ds : List Method) (k : String) :
    k ∈ (names.renameAll ds).2.keys ↔
      k ∈ names.keys ∨ k ∈ (names.renameAll ds).1.map Method.name := by
  induction ds generalizing names with
  | nil => simp [renameAll]
  | cons d ds ih =>
    simp only [renameAll, ih, keys_rename, List.map_cons, List.mem_cons]
    tauto

/-- Renamed methods have distinct names, and none that was visible. -/
theorem renameAll_distinct (names : NameCounters) (ds : List Method) :
    ((names.renameAll ds).1.map Method.name).Nodup ∧
      ∀ k ∈ (names.renameAll ds).1.map Method.name, k ∉ names.keys := by
  induction ds generalizing names with
  | nil => exact ⟨List.nodup_nil, fun _ hk => nomatch hk⟩
  | cons d ds ih =>
    obtain ⟨hnodup, hfresh⟩ := ih (names.rename d).2
    simp only [renameAll, List.map_cons]
    have hnew : ∀ k ∈ ((names.rename d).2.renameAll ds).1.map Method.name,
        k ∉ names.keys ∧ k ≠ (names.rename d).1.name := by
      intro k hk
      have := hfresh k hk
      rwa [keys_rename, not_or] at this
    refine ⟨List.nodup_cons.mpr ⟨fun hmem => (hnew _ hmem).2 rfl, hnodup⟩, fun k hk => ?_⟩
    rcases List.mem_cons.mp hk with rfl | hk
    · exact names.rename_fresh d
    · exact (hnew k hk).1

theorem outline_renameAll (names : NameCounters) (ds : List Method) :
    (names.renameAll ds).1.map Method.outline = ds.map Method.outline := by
  induction ds generalizing names with
  | nil => rfl
  | cons d ds ih => simp only [renameAll, List.map_cons, outline_rename, ih]

end NameCounters

/-! ## Names of members -/

/-- The names of all methods. -/
def Members.methodNames (m : Members) : List String := (m.methods ++ m.staticMethods).map Method.name

namespace NameCounters

theorem keys_renameMembers (names : NameCounters) (m : Members) (k : String) :
    k ∈ (names.renameMembers m).2.keys ↔
      k ∈ names.keys ∨ k ∈ (names.renameMembers m).1.methodNames := by
  simp only [renameMembers, keys_renameAll, Members.methodNames, List.map_append, List.mem_append,
    or_assoc]

theorem renameMembers_distinct (names : NameCounters) (m : Members) :
    (names.renameMembers m).1.methodNames.Nodup ∧
      ∀ k ∈ (names.renameMembers m).1.methodNames, k ∉ names.keys := by
  obtain ⟨hnodup, hfresh⟩ := names.renameAll_distinct m.methods
  obtain ⟨hnodup', hfresh'⟩ := (names.renameAll m.methods).2.renameAll_distinct m.staticMethods
  have hnew := fun k hk => not_or.mp ((not_congr (names.keys_renameAll m.methods k)).mp (hfresh' k hk))
  simp only [renameMembers, Members.methodNames, List.map_append]
  refine ⟨List.nodup_append.mpr ⟨hnodup, hnodup', ?_⟩, fun k hk => ?_⟩
  · rintro k hk _ hk' rfl
    exact (hnew k hk').2 hk
  · rcases List.mem_append.mp hk with hk | hk
    · exact hfresh k hk
    · exact (hnew k hk).1

theorem outline_renameMembers (names : NameCounters) (m : Members) :
    (names.renameMembers m).1.outline = m.outline := by
  simp only [renameMembers, Members.outline, outline_renameAll]

end NameCounters

namespace SymbolTable

/-- The names of the methods of an interface, and none of any other entity. -/
def methodNames (t : SymbolTable) (id : EntityId) : List String :=
  match t.entity? id with
  | some (.interface d) => d.members.methodNames
  | _ => []

end SymbolTable

/-! ## Rooted tables -/

/-- From every interface in use the parents lead through interfaces in use to one
without a parent. -/
structure SymbolTable.Rooted (t : SymbolTable) : Prop where
  parent : ∀ x d p, t.isInUse x = true → t.entity? x = some (.interface d) → d.parent = some p →
    ∃ y, p = .entity .interface y ∧ t.isInUse y = true ∧ t.kind? y = some .interface
  acyclic : ∀ x, t.isInUse x = true → ¬ t.OnCycle x

namespace SymbolTable

variable {t : SymbolTable} {x y : EntityId}

/-- The parents of a rooted table can be read from its interfaces. -/
theorem Rooted.parent_eq (h : t.Rooted) {d : Interface} (hused : t.isInUse x = true)
    (hd : t.entity? x = some (.interface d)) :
    d.parent = (t.parentOf? x).map (.entity .interface) := by
  rw [parentOf?_eq hd]
  cases hp : d.parent with
  | none => simp [Entity.parent?, hp]
  | some p =>
      obtain ⟨y, rfl, _⟩ := h.parent x d p hused hd hp
      simp [Entity.parent?, hp, TypeRef.entity?]

/-- The parent of an interface in use is an interface in use. -/
theorem Rooted.hasParent (h : t.Rooted) (hused : t.isInUse x = true)
    (hkind : t.kind? x = some .interface) (hy : t.HasParent x y) :
    t.isInUse y = true ∧ t.kind? y = some .interface := by
  obtain ⟨d, hd⟩ := t.exists_interface x hkind
  have hp : d.parent = some (.entity .interface y) := by rw [h.parent_eq hused hd, hy]; rfl
  obtain ⟨z, heq, hz⟩ := h.parent x d _ hused hd hp
  cases heq
  exact hz

theorem Rooted.reachable (h : t.Rooted) (hused : t.isInUse x = true)
    (hkind : t.kind? x = some .interface) (hy : Relation.ReflTransGen t.HasParent x y) :
    t.isInUse y = true ∧ t.kind? y = some .interface := by
  induction hy with
  | refl => exact ⟨hused, hkind⟩
  | tail _ hparent ih => exact h.hasParent ih.1 ih.2 hparent

theorem Rooted.exists_lineage (h : t.Rooted) (hused : t.isInUse x = true)
    (hkind : t.kind? x = some .interface) : ∃ l, t.Lineage x l :=
  SymbolTable.exists_lineage fun y hy => h.acyclic y (h.reachable hused hkind hy).1

end SymbolTable

/-! ## Naming lineages -/

namespace MethodNaming

/-- What holds while the interfaces of a table get their method names. -/
structure Naming (t : SymbolTable) (s : MethodNaming) : Prop where
  size : s.table.size = t.size
  names : s.table.names = t.names
  marks : ∀ x, s.table.isInUse x = t.isInUse x
  interfaces : ∀ x d, t.entity? x = some (.interface d) →
    ∃ m, s.table.entity? x = some (.interface { d with members := m }) ∧
      m.outline = d.members.outline
  others : ∀ x e, t.entity? x = some e → e.kind ≠ .interface → s.table.entity? x = some e
  done : ∀ x names, s.done.find? x = some names → ∃ l, t.Lineage x l ∧
    (∀ y ∈ l, y ∈ s.done.keys) ∧
    (∀ k, k ∈ names.keys ↔ k ∈ (x :: l).flatMap s.table.methodNames) ∧
    ((x :: l).flatMap s.table.methodNames).Nodup

/-- What naming the methods of an interface with the lineage `l` gives. -/
structure Named (t : SymbolTable) (s : MethodNaming) (x : EntityId) (l : List EntityId)
    (r : NameCounters × MethodNaming) : Prop where
  naming : Naming t r.2
  found : r.2.done.find? x = some r.1
  mono : ∀ y ∈ s.done.keys, y ∈ r.2.done.keys
  added : ∀ y ∈ r.2.done.keys, y ∈ s.done.keys ∨ y ∈ x :: l
  kept : ∀ y, y ∉ x :: l → r.2.table.entity? y = s.table.entity? y

variable {t : SymbolTable} {s : MethodNaming} {x : EntityId} {l : List EntityId}

theorem Naming.start (t : SymbolTable) : Naming t { table := t } where
  size := rfl
  names := rfl
  marks _ := rfl
  interfaces _ d h := ⟨d.members, h, rfl⟩
  others _ _ h _ := h
  done _ _ h := nomatch h

theorem nameMethods_root {fuel : Nat} {below : List EntityId} {d : Interface}
    (hdone : s.done.find? x = none) (hd : s.table.entity? x = some (.interface d))
    (hbelow : x ∉ below) (hparent : d.parent = none) :
    nameMethods (fuel + 1) below x s = nameOwn x d Register.empty s := by
  have hcontains : ¬ below.contains x = true := by simpa using hbelow
  rw [nameMethods, hdone, hd]
  simp only [if_neg hcontains, hparent]

theorem nameMethods_step {fuel : Nat} {below : List EntityId} {d : Interface} {p : EntityId}
    (hdone : s.done.find? x = none) (hd : s.table.entity? x = some (.interface d))
    (hbelow : x ∉ below) (hparent : d.parent = some (.entity .interface p)) :
    nameMethods (fuel + 1) below x s =
      nameOwn x d (nameMethods fuel (x :: below) p s).1 (nameMethods fuel (x :: below) p s).2 := by
  have hcontains : ¬ below.contains x = true := by simpa using hbelow
  rw [nameMethods, hdone, hd]
  simp only [if_neg hcontains, hparent]

/-- The methods of an interface are named when its ancestors are done. -/
theorem Naming.own (h : Naming t s) {d : Interface}
    (hd : s.table.entity? x = some (.interface d)) (hx : x ∉ s.done.keys) (hl : t.Lineage x l)
    (hdone : ∀ y ∈ l, y ∈ s.done.keys) {inherited : NameCounters}
    (hkeys : ∀ k, k ∈ inherited.keys ↔ k ∈ l.flatMap s.table.methodNames)
    (hnodup : (l.flatMap s.table.methodNames).Nodup) {table : SymbolTable}
    (htable : table =
      s.table.set x (.interface { d with members := (inherited.renameMembers d.members).1 })) :
    Naming t { table, done := s.done.put x (inherited.renameMembers d.members).2 } := by
  have hlt := SymbolTable.lt_of_entity? hd
  have hself := htable ▸ SymbolTable.entity?_set_self hlt
    (.interface { d with members := (inherited.renameMembers d.members).1 })
  have hother : ∀ y, y ≠ x → table.entity? y = s.table.entity? y := fun y hy =>
    htable ▸ SymbolTable.entity?_set_of_ne _ hy _
  have hnames : table.methodNames x = (inherited.renameMembers d.members).1.methodNames := by
    rw [SymbolTable.methodNames, hself]
  -- The names of an interface that is done do not change.
  have hsame : ∀ ys : List EntityId, (∀ y ∈ ys, y ∈ s.done.keys) →
      ys.flatMap table.methodNames = ys.flatMap s.table.methodNames := by
    intro ys hys
    refine List.flatMap_congr fun y hy => ?_
    have hne : y ≠ x := fun heq => hx (heq ▸ hys y hy)
    rw [SymbolTable.methodNames, SymbolTable.methodNames, hother y hne]
  obtain ⟨hown, hfresh⟩ := inherited.renameMembers_distinct d.members
  refine
    { size := by rw [htable, SymbolTable.size_set, h.size]
      names := by rw [htable]; exact h.names
      marks := fun y => by rw [htable, SymbolTable.isInUse_set, h.marks]
      interfaces := fun y d₀ hd₀ => ?_
      others := fun y e he hkind => ?_
      done := fun y names hy => ?_ }
  · obtain ⟨m, hm, houtline⟩ := h.interfaces y d₀ hd₀
    by_cases hyx : y = x
    · subst hyx
      have hdm : d = { d₀ with members := m } := by
        rw [hd] at hm
        exact Entity.interface.inj (Option.some.inj hm)
      refine ⟨(inherited.renameMembers d.members).1, ?_, ?_⟩
      · rw [hself, hdm]
      · rw [NameCounters.outline_renameMembers, hdm, houtline]
    · exact ⟨m, (hother y hyx).trans hm, houtline⟩
  · have hne : y ≠ x := by
      rintro rfl
      rw [h.others y e he hkind] at hd
      cases hd
      exact hkind rfl
    rw [hother y hne, h.others y e he hkind]
  · rw [Register.find?_put] at hy
    split at hy
    next hyx =>
      subst hyx
      cases hy
      refine ⟨l, hl, fun z hz => (Register.mem_keys_put ..).mpr (.inr (hdone z hz)), fun k => ?_, ?_⟩
      · rw [NameCounters.keys_renameMembers, hkeys, List.flatMap_cons, List.mem_append, hnames,
          hsame l hdone, or_comm]
      · rw [List.flatMap_cons, hnames, hsame l hdone]
        refine List.nodup_append.mpr ⟨hown, hnodup, ?_⟩
        rintro k hk _ hk' rfl
        exact hfresh k hk ((hkeys k).mpr hk')
    next hyx =>
      obtain ⟨l₀, hl₀, hdone₀, hkeys₀, hnodup₀⟩ := h.done y names hy
      have hall : ∀ z ∈ y :: l₀, z ∈ s.done.keys :=
        List.forall_mem_cons.mpr ⟨Register.mem_keys_of_find? hy, hdone₀⟩
      refine ⟨l₀, hl₀, fun z hz => (Register.mem_keys_put ..).mpr (.inr (hdone₀ z hz)), ?_, ?_⟩
      · rw [hsame _ hall]
        exact hkeys₀
      · rw [hsame _ hall]
        exact hnodup₀

/-- The entity of an interface, with the parent that it has in the table. -/
theorem Naming.interface (h : Naming t s) (hkind : t.kind? x = some .interface) :
    ∃ d₀ d, t.entity? x = some (.interface d₀) ∧ s.table.entity? x = some (.interface d) ∧
      d.parent = d₀.parent := by
  obtain ⟨d₀, he⟩ := t.exists_interface x hkind
  obtain ⟨m, hm, _⟩ := h.interfaces x d₀ he
  exact ⟨d₀, _, he, hm, rfl⟩

/-- An interface that is done answers with its counters. -/
theorem Naming.of_done (h : Naming t s) {names : NameCounters}
    (hdone : s.done.find? x = some names) (fuel : Nat) (below : List EntityId) :
    Named t s x l (nameMethods (fuel + 1) below x s) := by
  rw [nameMethods, hdone]
  exact ⟨h, hdone, fun _ hy => hy, fun _ hy => .inl hy, fun _ _ => rfl⟩

/-- An interface that is not done answers when its ancestors are done. -/
theorem Naming.of_ancestors {s' : MethodNaming} {inherited : NameCounters} {d : Interface}
    (h : Naming t s') (hx : x ∉ s.done.keys) (hd : s.table.entity? x = some (.interface d))
    (hl : t.Lineage x l) (hmono : ∀ y ∈ s.done.keys, y ∈ s'.done.keys)
    (hadded : ∀ y ∈ s'.done.keys, y ∈ s.done.keys ∨ y ∈ l)
    (hkept : ∀ y, y ∉ l → s'.table.entity? y = s.table.entity? y)
    (hdone : ∀ y ∈ l, y ∈ s'.done.keys)
    (hkeys : ∀ k, k ∈ inherited.keys ↔ k ∈ l.flatMap s'.table.methodNames)
    (hnodup : (l.flatMap s'.table.methodNames).Nodup) :
    Named t s x l (nameOwn x d inherited s') := by
  have hx' : x ∉ s'.done.keys := fun hmem => (hadded x hmem).elim hx hl.not_mem
  have hd' : s'.table.entity? x = some (.interface d) := (hkept x hl.not_mem).trans hd
  refine
    { naming := h.own hd' hx' hl hdone hkeys hnodup (SymbolTable.modify_eq_set hd' _)
      found := by rw [nameOwn, Register.find?_put, if_pos rfl]
      mono := fun y hy => (Register.mem_keys_put ..).mpr (.inr (hmono y hy))
      added := fun y hy => ?_
      kept := fun y hy => ?_ }
  · rcases (Register.mem_keys_put ..).mp hy with rfl | hy
    · exact .inr List.mem_cons_self
    · exact (hadded y hy).imp_right (List.mem_cons_of_mem x)
  · rw [List.mem_cons, not_or] at hy
    rw [nameOwn, SymbolTable.entity?_modify_of_ne _ hy.1, hkept y hy.2]

/-- The methods of an interface are named, after those of its ancestors. -/
theorem nameMethods_spec (ht : t.Rooted) (hl : t.Lineage x l) {fuel : Nat} {below : List EntityId}
    (hfuel : l.length < fuel) (hbelow : ∀ y ∈ x :: l, y ∉ below) (h : Naming t s)
    (hused : t.isInUse x = true) (hkind : t.kind? x = some .interface) :
    Named t s x l (nameMethods fuel below x s) := by
  induction hl generalizing fuel below s with
  | @root x hroot =>
      obtain ⟨fuel, rfl⟩ := Nat.exists_eq_add_one_of_ne_zero (Nat.ne_of_gt hfuel)
      cases hdone : s.done.find? x with
      | some names => exact h.of_done hdone fuel below
      | none =>
          obtain ⟨d₀, d, hd₀, hd, hparent⟩ := h.interface hkind
          have hx := (Register.find?_eq_none_iff _ _).mp hdone
          have hnone : d₀.parent = none := by rw [ht.parent_eq hused hd₀, hroot]; rfl
          rw [nameMethods_root hdone hd (hbelow x List.mem_cons_self) (hparent.trans hnone)]
          have hkeys : ∀ k, k ∈ (Register.empty : NameCounters).keys ↔
              k ∈ List.flatMap s.table.methodNames [] := fun _ => Iff.rfl
          exact h.of_ancestors hx hd (.root hroot) (fun _ hy => hy) (fun _ hy => .inl hy)
            (fun _ _ => rfl) (fun _ hy => absurd hy List.not_mem_nil) hkeys List.nodup_nil
  | @step x p l hstep rest ih =>
      obtain ⟨fuel, rfl⟩ := Nat.exists_eq_add_one_of_ne_zero (Nat.ne_zero_of_lt hfuel)
      have hl : t.Lineage x (p :: l) := .step hstep rest
      cases hdone : s.done.find? x with
      | some names => exact h.of_done hdone fuel below
      | none =>
          obtain ⟨d₀, d, hd₀, hd, hparent⟩ := h.interface hkind
          have hx := (Register.find?_eq_none_iff _ _).mp hdone
          have hp : d₀.parent = some (.entity .interface p) := by
            rw [ht.parent_eq hused hd₀, hstep]
            rfl
          rw [nameMethods_step hdone hd (hbelow x List.mem_cons_self) (hparent.trans hp)]
          obtain ⟨hpused, hpkind⟩ := ht.hasParent hused hkind hstep
          have hbelow' : ∀ y ∈ p :: l, y ∉ x :: below := by
            intro y hy hmem
            rcases List.mem_cons.mp hmem with rfl | hmem
            · exact hl.not_mem hy
            · exact hbelow y (List.mem_cons_of_mem x hy) hmem
          have hrest := ih (Nat.lt_of_succ_lt_succ hfuel) hbelow' h hpused hpkind
          obtain ⟨l', hl', hdone', hkeys, hnodup⟩ := hrest.naming.done p _ hrest.found
          obtain rfl := rest.unique hl'
          have hall : ∀ y ∈ p :: l, y ∈ (nameMethods fuel (x :: below) p s).2.done.keys :=
            List.forall_mem_cons.mpr ⟨Register.mem_keys_of_find? hrest.found, hdone'⟩
          exact hrest.naming.of_ancestors hx hd hl hrest.mono hrest.added hrest.kept hall hkeys
            hnodup

/-- After all interfaces are named, each of them is done. -/
theorem nameAll_spec (ht : t.Rooted) {ids : List EntityId}
    (hids : ∀ x ∈ ids, t.isInUse x = true ∧ t.kind? x = some .interface) (h : Naming t s) :
    Naming t (nameAll ids s) ∧ (∀ y ∈ s.done.keys, y ∈ (nameAll ids s).done.keys) ∧
      ∀ x ∈ ids, x ∈ (nameAll ids s).done.keys := by
  induction ids generalizing s with
  | nil => exact ⟨h, fun _ hy => hy, fun _ hx => nomatch hx⟩
  | cons x ids ih =>
    obtain ⟨hused, hkind⟩ := hids x List.mem_cons_self
    obtain ⟨l, hl⟩ := ht.exists_lineage hused hkind
    have hfuel : l.length < s.table.size + 1 := by
      rw [h.size]
      exact Nat.lt_succ_of_le hl.length_le
    have hnamed := nameMethods_spec ht hl hfuel (fun _ _ => List.not_mem_nil) h hused hkind
    obtain ⟨hnaming, hmono, hdone⟩ :=
      ih (fun y hy => hids y (List.mem_cons_of_mem x hy)) hnamed.naming
    refine ⟨hnaming, fun y hy => hmono y (hnamed.mono y hy), fun y hy => ?_⟩
    rcases List.mem_cons.mp hy with rfl | hy
    · exact hmono y (Register.mem_keys_of_find? hnamed.found)
    · exact hdone y hy

end MethodNaming

/-! ## The stage -/

/-- What the stage makes of a rooted table: a renaming in which an interface and its
ancestors have methods of distinct names. -/
structure SymbolTable.MethodsNamed (t t' : SymbolTable) : Prop where
  renamed : t.Renamed t'
  distinct : ∀ x, t.isInUse x = true → t.kind? x = some .interface →
    ((x :: t'.ancestors x).flatMap t'.methodNames).Nodup

theorem MethodNaming.Naming.renamed {t : SymbolTable} {s : MethodNaming} (h : Naming t s) :
    t.Renamed s.table where
  size := h.size
  names := h.names
  marks := h.marks
  entities x e he := by
    by_cases hkind : e.kind = .interface
    · cases e with
      | interface d =>
          obtain ⟨m, hm, houtline⟩ := h.interfaces x d he
          exact ⟨_, hm, .of_outline (Entity.outline_withMembers houtline) fun _ hv => .inl hv⟩
      | _ => cases hkind
    · exact ⟨e, h.others x e he hkind, .refl e⟩

theorem resolveMethodNames_ok {c c' : Compilation} {u : Unit}
    (h : resolveMethodNames c = .ok u c') :
    c' = { c with
      table := (MethodNaming.nameAll ((c.table.idsOf .interface).filter c.table.isInUse)
        { table := c.table }).table } := by
  obtain ⟨_, _, hmodify, hcheck⟩ := bind_ok.mp h
  rw [checkLimit_ok hcheck]
  exact modify_ok.mp hmodify

/-- The stage names the methods of all interfaces in use. -/
theorem SymbolTable.Rooted.naming {c c' : Compilation} {u : Unit} (ht : c.table.Rooted)
    (h : resolveMethodNames c = .ok u c') :
    ∃ s : MethodNaming, c'.table = s.table ∧ MethodNaming.Naming c.table s ∧
      ∀ x, c.table.isInUse x = true → c.table.kind? x = some .interface → x ∈ s.done.keys := by
  have hids : ∀ x, x ∈ (c.table.idsOf .interface).filter c.table.isInUse ↔
      c.table.isInUse x = true ∧ c.table.kind? x = some .interface := by
    intro x
    rw [List.mem_filter, SymbolTable.mem_idsOf, SymbolTable.kind?_eq_some, and_comm]
  obtain ⟨hnaming, _, hdone⟩ :=
    MethodNaming.nameAll_spec ht (fun x => (hids x).mp) (MethodNaming.Naming.start c.table)
  rw [resolveMethodNames_ok h]
  exact ⟨_, rfl, hnaming, fun x hused hkind => hdone x ((hids x).mpr ⟨hused, hkind⟩)⟩

theorem SymbolTable.Rooted.methodsNamed {c c' : Compilation} {u : Unit} (ht : c.table.Rooted)
    (h : resolveMethodNames c = .ok u c') : c.table.MethodsNamed c'.table := by
  obtain ⟨s, hs, hnaming, hdone⟩ := ht.naming h
  rw [hs]
  refine ⟨hnaming.renamed, fun x hused hkind => ?_⟩
  have hmem := hdone x hused hkind
  obtain ⟨names, hnames⟩ := Option.isSome_iff_exists.mp ((Register.contains_iff _ _).mpr hmem)
  obtain ⟨l, hl, _, _, hnodup⟩ := hnaming.done x names hnames
  rwa [hnaming.renamed.ancestors_eq, hl.ancestors_eq]

theorem SymbolTable.Rooted.renamed {t t' : SymbolTable} (h : t.Rooted) (hrenamed : t.Renamed t') :
    t'.Rooted where
  parent x d p hused hd hp := by
    obtain ⟨e, he, hentity⟩ := hrenamed.entity_before hd
    cases e with
    | interface d₀ =>
        obtain ⟨y, rfl, hy, hkind⟩ := h.parent x d₀ p ((hrenamed.marks x).symm.trans hused) he
          (hentity.parent.symm.trans hp)
        exact ⟨y, rfl, (hrenamed.marks y).trans hy, (hrenamed.kind?_eq y).trans hkind⟩
    | _ => cases hentity.kind
  acyclic x hused hcycle := by
    have hparent : t'.HasParent = t.HasParent := by
      funext x y
      rw [HasParent, HasParent, hrenamed.parentOf?_eq]
    refine h.acyclic x ((hrenamed.marks x).symm.trans hused) ?_
    rwa [OnCycle, hparent] at hcycle

/-- A table is rooted after linking. -/
theorem SymbolTable.Resolved.rooted {t : SymbolTable} (h : t.Resolved) : t.Rooted where
  parent _ _ _ hused hd hp := h.parents _ _ _ hused hd hp
  acyclic := h.acyclic

end IdlModel
