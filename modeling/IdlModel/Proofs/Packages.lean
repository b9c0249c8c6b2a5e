import IdlModel.Grouping
import IdlModel.Proofs.ClosedModel

/-!
# The listing of packages

The packages of a compiled model divide the entities in use among them: `packages_partition`.

*Sorting.*  A sorted list keeps the order of elements that compare equal.  So handles that come in
order are sorted by their names, and equal names by their handles:
`pairwise_mergeSort_of_pairwise`, `pairwise_listed`.

*Lists.*  The list of a kind in a package holds what is in use, is of the kind and belongs to the
package.  Such lists have no entity in common, and every entity in use is in one of them:
`listing_perm`.

*The pass.*  After some of the entities have been entered, each list holds those of them that belong
there, in their order, and a package is there if one of them belongs to it: `Groups`.  One entity
more keeps this so (`Groups.group`), so it holds at the end of the pass.
-/

namespace IdlModel

/-! ## Sorting -/

/-- A sorted list is ascending, and elements that compare equal stand as they did before. -/
theorem pairwise_mergeSort_of_pairwise {α : Type} {le : α → α → Bool} {r : α → α → Prop}
    (trans : ∀ a b c, le a b → le b c → le a c) (total : ∀ a b, le a b || le b a) {l : List α}
    (h : l.Pairwise r) :
    (l.mergeSort le).Pairwise fun a b => le a b = true ∧ (le b a = true → r a b) := by
  induction h with
  | nil => simp
  | @cons a l ha _ ih =>
      obtain ⟨l₁, l₂, hsorted, hrest, hbefore⟩ := List.mergeSort_cons trans total a l
      have hascending := List.pairwise_mergeSort trans total (a :: l)
      have hmem : ∀ b ∈ l₂, b ∈ l := fun b hb =>
        List.mem_mergeSort.mp (hrest ▸ List.mem_append_right l₁ hb)
      rw [hsorted, List.pairwise_append, List.pairwise_cons] at hascending
      rw [hrest, List.pairwise_append] at ih
      obtain ⟨-, ⟨hhead, -⟩, hfront⟩ := hascending
      obtain ⟨hl₁, hl₂, hcross⟩ := ih
      rw [hsorted, List.pairwise_append, List.pairwise_cons]
      refine ⟨hl₁, ⟨fun b hb => ⟨hhead b hb, fun _ => ha b (hmem b hb)⟩, hl₂⟩, fun b hb => ?_⟩
      have hnot : ¬ le a b = true := by simpa using hbefore b hb
      exact List.forall_mem_cons.mpr
        ⟨⟨hfront b hb a List.mem_cons_self, fun hle => absurd hle hnot⟩, hcross b hb⟩

/-- A list that is sorted by names is ascending, and elements with equal names stand as they did
before. -/
theorem pairwise_sorted {α : Type} (name : α → String) {r : α → α → Prop} {l : List α}
    (h : l.Pairwise r) :
    (l.mergeSort fun a b => name a ≤ name b).Pairwise
      fun a b => name a < name b ∨ name a = name b ∧ r a b := by
  have htrans : ∀ a b c, decide (name a ≤ name b) = true →
      decide (name b ≤ name c) = true → decide (name a ≤ name c) = true := by
    intro a b c hab hbc
    exact decide_eq_true (String.le_trans (of_decide_eq_true hab) (of_decide_eq_true hbc))
  have htotal : ∀ a b, (decide (name a ≤ name b) || decide (name b ≤ name a)) = true := by
    intro a b
    simpa using String.le_total (name a) (name b)
  refine (pairwise_mergeSort_of_pairwise htrans htotal h).imp fun {a b} ⟨hle, hties⟩ => ?_
  by_cases hba : name b ≤ name a
  · exact .inr ⟨String.le_antisymm (of_decide_eq_true hle) hba, hties (decide_eq_true hba)⟩
  · exact .inl (String.not_le.mp hba)

theorem nodup_eraseDups : ∀ l : List String, l.eraseDups.Nodup
  | [] => List.nodup_nil
  | a :: l => by
      have ih := nodup_eraseDups (l.filter fun b => !b == a)
      rw [List.eraseDups_cons, List.nodup_cons]
      refine ⟨fun hmem => ?_, ih⟩
      simpa using (List.mem_filter.mp (List.mem_eraseDups.mp hmem)).2
termination_by l => l.length
decreasing_by
  simp only [List.length_cons]
  exact Nat.lt_succ_of_le (List.length_filter_le _ l)

namespace CompiledModel

variable {t : SymbolTable} {x : EntityId}

theorem pairwise_idsInUse (t : SymbolTable) : t.idsInUse.Pairwise (·.index < ·.index) := by
  refine List.Pairwise.filter _ ?_
  rw [SymbolTable.ids, List.pairwise_map]
  exact List.pairwise_lt_range

/-- Of two handles one comes first: the one with the smaller name, and of two with the same name
the smaller one. -/
def Precedes (t : SymbolTable) (x y : EntityId) : Prop :=
  t.keyOf x < t.keyOf y ∨ t.keyOf x = t.keyOf y ∧ x.index < y.index

theorem pairwise_listed (t : SymbolTable) (package : String) (kind : EntityKind) :
    (t.listed package kind).Pairwise (Precedes t) :=
  pairwise_sorted t.keyOf ((pairwise_idsInUse t).filter _)

theorem nodup_listed (t : SymbolTable) (package : String) (kind : EntityKind) :
    (t.listed package kind).Nodup := by
  rw [SymbolTable.listed, (List.mergeSort_perm _ _).nodup_iff]
  exact t.nodup_idsInUse.filter _

/-- The names of the packages stand in their order, each once. -/
theorem pairwise_packageNames (t : SymbolTable) : t.packageNames.Pairwise (· < ·) := by
  refine (pairwise_sorted (fun name => name) (nodup_eraseDups _)).imp fun {a b} h => ?_
  obtain hlt | ⟨heq, hne⟩ := h
  · exact hlt
  · exact absurd heq hne

theorem mem_packageNames {name : String} :
    name ∈ t.packageNames ↔ ∃ x ∈ t.idsInUse, t.packageOf x = name := by
  rw [SymbolTable.packageNames, List.mem_mergeSort, List.mem_eraseDups, List.mem_map]

/-! ## Lists -/

/-- The kinds, in the order in which their lists stand. -/
def kinds : List EntityKind := [.enumeration, .callback, .dictionary, .interface]

/-- All handles of the lists of a package. -/
def handles (p : PackageContents) : List EntityId := kinds.flatMap p.ofKind

/-- All handles that a model lists. -/
def listing (m : CompiledModel) : List EntityId := m.packages.flatMap fun (_, p) => handles p

theorem length_handles (p : PackageContents) : (handles p).length = p.size := by
  simp [handles, kinds, PackageContents.ofKind, PackageContents.size, Nat.add_assoc]

theorem entityCount_eq (m : CompiledModel) : m.entityCount = m.listing.length := by
  rw [entityCount, listing]
  induction m.packages with
  | nil => rfl
  | cons p packages ih =>
      rw [List.foldr_cons, ih, List.flatMap_cons, List.length_append, length_handles]

theorem mem_ofKind {name : String} {contents : PackageContents}
    (h : (name, contents) ∈ (ofTable t).packages) (kind : EntityKind) :
    x ∈ contents.ofKind kind ↔
      t.isInUse x = true ∧ t.packageOf x = name ∧ t.kind? x = some kind := by
  rw [(ofKind_ofTable h kind).1, mem_listed]

theorem mem_kinds (kind : EntityKind) : kind ∈ kinds := by
  cases kind <;> decide

theorem mem_handles {name : String} {contents : PackageContents}
    (h : (name, contents) ∈ (ofTable t).packages) :
    x ∈ handles contents ↔ t.isInUse x = true ∧ t.packageOf x = name := by
  simp only [handles, List.mem_flatMap, mem_ofKind h]
  constructor
  · rintro ⟨kind, -, hused, hname, -⟩
    exact ⟨hused, hname⟩
  · rintro ⟨hused, hname⟩
    obtain ⟨e, he⟩ := SymbolTable.entity?_of_lt (SymbolTable.lt_of_isInUse hused)
    exact ⟨e.kind, mem_kinds e.kind, hused, hname, SymbolTable.kind?_eq he⟩

theorem map_fst_packages (t : SymbolTable) : (ofTable t).packages.map (·.1) = t.packageNames := by
  simp [ofTable, Function.comp_def]

theorem nodup_handles {name : String} {contents : PackageContents}
    (h : (name, contents) ∈ (ofTable t).packages) : (handles contents).Nodup := by
  refine List.nodup_flatMap.mpr ⟨fun kind _ => ?_, ?_⟩
  · rw [(ofKind_ofTable h kind).1]
    exact nodup_listed t name kind
  · have hkinds : kinds.Pairwise (· ≠ ·) := by decide
    refine hkinds.imp fun {kind other} hne x hx hother => hne ?_
    have hkind := ((mem_ofKind h kind).mp hx).2.2
    have hother := ((mem_ofKind h other).mp hother).2.2
    exact Option.some.inj (hkind.symm.trans hother)

theorem nodup_listing (t : SymbolTable) : (ofTable t).listing.Nodup := by
  have hnames := pairwise_packageNames t
  rw [← map_fst_packages, List.pairwise_map] at hnames
  refine List.nodup_flatMap.mpr ⟨fun p hp => nodup_handles hp, ?_⟩
  refine hnames.imp_of_mem fun {p q} hp hq hlt x hx hother => ?_
  have hname := ((mem_handles hp).mp hx).2
  have hother := ((mem_handles hq).mp hother).2
  exact String.lt_irrefl _ ((hname.symm.trans hother) ▸ hlt)

/-- What is listed is what is in use. -/
theorem listing_perm (t : SymbolTable) : (ofTable t).listing.Perm t.idsInUse := by
  refine (List.perm_ext_iff_of_nodup (nodup_listing t) t.nodup_idsInUse).mpr fun x => ?_
  rw [SymbolTable.mem_idsInUse, ← lists_ofTable (t := t)]
  simp only [listing, handles, List.mem_flatMap, Lists]
  constructor
  · rintro ⟨⟨name, contents⟩, hp, kind, -, hx⟩
    exact ⟨name, contents, kind, hp, hx⟩
  · rintro ⟨name, contents, kind, hp, hx⟩
    exact ⟨(name, contents), hp, kind, mem_kinds kind, hx⟩

/-! ## The pass -/

theorem ofKind_add (p : PackageContents) (x : EntityId) (kind other : EntityKind) :
    (p.add x kind).ofKind other =
      if other = kind then p.ofKind other ++ [x] else p.ofKind other := by
  cases kind <;> cases other <;> rfl

theorem ofKind_sorted (p : PackageContents) (kind : EntityKind) :
    (p.sorted t).ofKind kind = (p.ofKind kind).mergeSort fun x y => t.keyOf x ≤ t.keyOf y := by
  cases kind <;> rfl

theorem eq_of_ofKind {p q : PackageContents} (h : ∀ kind, p.ofKind kind = q.ofKind kind) :
    p = q := by
  cases p
  cases q
  obtain rfl := h .enumeration
  obtain rfl := h .callback
  obtain rfl := h .dictionary
  obtain rfl := h .interface
  rfl

section

variable {packages : List (String × PackageContents)} {package name : String} {kind : EntityKind}
  {contents : PackageContents}

theorem mem_names_enter :
    name ∈ (enter package kind x packages).map (·.1) ↔
      name = package ∨ name ∈ packages.map (·.1) := by
  induction packages with
  | nil => simp [enter]
  | cons p packages ih =>
      rw [enter]
      split
      next => simp
      next =>
        split
        next heq => simp [heq]
        next =>
          rw [List.map_cons, List.mem_cons, ih, List.map_cons, List.mem_cons]
          exact or_left_comm

/-- The packages stay in the order of their names. -/
theorem pairwise_enter (h : (packages.map (·.1)).Pairwise (· < ·)) :
    ((enter package kind x packages).map (·.1)).Pairwise (· < ·) := by
  induction packages with
  | nil => simp [enter]
  | cons p packages ih =>
      obtain ⟨hfirst, hrest⟩ := List.pairwise_cons.mp h
      rw [enter]
      split
      next hlt =>
        refine List.pairwise_cons.mpr ⟨List.forall_mem_cons.mpr ⟨hlt, fun name hname => ?_⟩, h⟩
        exact String.lt_trans hlt (hfirst name hname)
      next hlt =>
        split
        next => exact h
        next hne =>
          refine List.pairwise_cons.mpr ⟨fun name hname => ?_, ih hrest⟩
          obtain rfl | hname := mem_names_enter.mp hname
          · exact String.not_le.mp fun hle => hne (String.le_antisymm hle (String.not_lt.mp hlt))
          · exact hfirst name hname

/-- A name before all others is none of them. -/
theorem not_mem_names (h : ∀ other ∈ packages.map (·.1), package < other) :
    package ∉ packages.map (·.1) :=
  fun hmem => String.lt_irrefl package (h package hmem)

theorem ne_of_mem (h : package ∉ packages.map (·.1)) (hmem : (name, contents) ∈ packages) :
    name ≠ package := by
  rintro rfl
  exact h (List.mem_map_of_mem hmem)

/-- What stands in the packages when an entity has been entered.  The contents of its package are
those from before, or none, with the entity added. -/
theorem mem_enter (h : (packages.map (·.1)).Pairwise (· < ·))
    (hmem : (name, contents) ∈ enter package kind x packages) :
    name ≠ package ∧ (name, contents) ∈ packages ∨
      name = package ∧ ∃ old : PackageContents, contents = old.add x kind ∧
        ((package, old) ∈ packages ∨ old = {} ∧ package ∉ packages.map (·.1)) := by
  induction packages with
  | nil =>
      cases List.mem_singleton.mp hmem
      exact .inr ⟨rfl, {}, rfl, .inr ⟨rfl, List.not_mem_nil⟩⟩
  | cons p packages ih =>
      obtain ⟨hfirst, hrest⟩ := List.pairwise_cons.mp h
      rw [enter] at hmem
      split at hmem
      next hlt =>
        have hnew : package ∉ (p :: packages).map (·.1) := not_mem_names
          (List.forall_mem_cons.mpr ⟨hlt, fun other ho => String.lt_trans hlt (hfirst other ho)⟩)
        obtain heq | hmem := List.mem_cons.mp hmem
        · cases heq
          exact .inr ⟨rfl, {}, rfl, .inr ⟨rfl, hnew⟩⟩
        · exact .inl ⟨ne_of_mem hnew hmem, hmem⟩
      next hlt =>
        split at hmem
        next heq =>
          subst heq
          obtain heq | hmem := List.mem_cons.mp hmem
          · cases heq
            exact .inr ⟨rfl, p.2, rfl, .inl List.mem_cons_self⟩
          · exact .inl ⟨ne_of_mem (not_mem_names hfirst) hmem, List.mem_cons_of_mem p hmem⟩
        next hne =>
          obtain heq | hmem := List.mem_cons.mp hmem
          · cases heq
            exact .inl ⟨Ne.symm hne, List.mem_cons_self⟩
          · obtain ⟨hname, hmem⟩ | ⟨rfl, old, hcontents, hold⟩ := ih hrest hmem
            · exact .inl ⟨hname, List.mem_cons_of_mem p hmem⟩
            · refine .inr ⟨rfl, old, hcontents, ?_⟩
              obtain hold | ⟨hempty, hnew⟩ := hold
              · exact .inl (List.mem_cons_of_mem p hold)
              · exact .inr ⟨hempty, List.not_mem_cons_of_ne_of_not_mem hne hnew⟩

end

/-- Packages hold some entities of a table, each in the list where it belongs. -/
structure Groups (t : SymbolTable) (seen : List EntityId)
    (packages : List (String × PackageContents)) : Prop where
  ascending : (packages.map (·.1)).Pairwise (· < ·)
  names : ∀ name, name ∈ packages.map (·.1) ↔ ∃ x ∈ seen, t.packageOf x = name
  lists : ∀ name contents, (name, contents) ∈ packages → ∀ kind, contents.ofKind kind =
    seen.filter fun x => t.packageOf x == name && t.kind? x == some kind

namespace Groups

variable {seen : List EntityId} {packages : List (String × PackageContents)}

theorem nil (t : SymbolTable) : Groups t [] [] where
  ascending := List.Pairwise.nil
  names := by simp
  lists := nofun

/-- The list of an entity's package from before, which is empty if there was no such package. -/
theorem lists_old {old : PackageContents} {name : String} (h : Groups t seen packages)
    (hold : (name, old) ∈ packages ∨ old = {} ∧ name ∉ packages.map (·.1)) (kind : EntityKind) :
    old.ofKind kind = seen.filter fun x => t.packageOf x == name && t.kind? x == some kind := by
  obtain hold | ⟨rfl, hnew⟩ := hold
  · exact h.lists name old hold kind
  · rw [h.names] at hnew
    have hnone : (seen.filter fun x => t.packageOf x == name && t.kind? x == some kind) = [] := by
      refine List.filter_eq_nil_iff.mpr fun x hx hmem => hnew ⟨x, hx, ?_⟩
      exact beq_iff_eq.mp (Bool.and_eq_true_iff.mp hmem).1
    rw [hnone]
    cases kind <;> rfl

/-- One entity more. -/
theorem group (h : Groups t seen packages) (hx : x.index < t.size) :
    Groups t (seen ++ [x]) (group t packages x) := by
  obtain ⟨e, he⟩ := SymbolTable.entity?_of_lt hx
  have hpackage : t.packageOf x = e.identity.package := by
    rw [SymbolTable.packageOf, he]
    rfl
  have hkind := SymbolTable.kind?_eq he
  have hgroup : CompiledModel.group t packages x = enter (t.packageOf x) e.kind x packages := by
    rw [CompiledModel.group, he, hpackage]
  rw [hgroup]
  refine ⟨pairwise_enter h.ascending, fun name => ?_, fun name contents hmem kind => ?_⟩
  · rw [mem_names_enter, h.names]
    simp [or_comm, eq_comm]
  · rw [List.filter_append]
    obtain ⟨hne, hmem⟩ | ⟨rfl, old, rfl, hold⟩ := mem_enter h.ascending hmem
    · rw [h.lists name contents hmem kind]
      simp [Ne.symm hne]
    · rw [ofKind_add, h.lists_old hold]
      by_cases hsame : kind = e.kind
      · simp [hsame, hkind]
      · simp [hsame, hkind, Ne.symm hsame]

/-- The whole pass, by induction on the entities that are still to come. -/
theorem foldl (h : Groups t seen packages) {ids : List EntityId}
    (hids : ∀ x ∈ ids, x.index < t.size) :
    Groups t (seen ++ ids) (ids.foldl (CompiledModel.group t) packages) := by
  induction ids generalizing seen packages with
  | nil => simpa using h
  | cons x ids ih =>
      obtain ⟨hx, hids⟩ := List.forall_mem_cons.mp hids
      rw [List.append_cons]
      exact ih (h.group hx) hids

/-- When all entities in use have been entered, the packages are those of the model. -/
theorem names_eq (h : Groups t t.idsInUse packages) : packages.map (·.1) = t.packageNames := by
  have hnames := pairwise_packageNames t
  refine List.Perm.eq_of_pairwise (fun a b _ _ hab hba => ?_) h.ascending hnames ?_
  · exact absurd (String.lt_trans hab hba) (String.lt_irrefl a)
  · refine (List.perm_ext_iff_of_nodup (h.ascending.imp ?_) (hnames.imp ?_)).mpr fun name => ?_
    · rintro a _ hlt rfl
      exact String.lt_irrefl a hlt
    · rintro a _ hlt rfl
      exact String.lt_irrefl a hlt
    · rw [h.names, mem_packageNames]

end Groups

/-- The pass collects the packages of the model. -/
theorem grouped_eq (t : SymbolTable) : grouped t = (ofTable t).packages := by
  have h : Groups t t.idsInUse (t.idsInUse.foldl (group t) []) := by
    have hids : ∀ x ∈ t.idsInUse, x.index < t.size := fun x hx =>
      SymbolTable.lt_of_isInUse ((t.mem_idsInUse x).mp hx)
    simpa using (Groups.nil t).foldl hids
  rw [grouped, ofTable, ← h.names_eq, List.map_map]
  refine List.map_congr_left fun ⟨name, contents⟩ hmem => ?_
  refine congrArg (Prod.mk name) (eq_of_ofKind fun kind => ?_)
  rw [ofKind_sorted, h.lists name contents hmem kind]
  cases kind <;> rfl

/-! ## The listing -/

/-- The packages of a model divide the entities in use among them. -/
structure ListsInUse (m : CompiledModel) : Prop where
  /-- An entity in use is listed once, and no other one is listed. -/
  once : ∀ x, m.listing.count x = if m.table.isInUse x = true then 1 else 0
  /-- An entity is listed in its own package, in the list of its kind. -/
  own : ∀ name contents kind x, (name, contents) ∈ m.packages → x ∈ contents.ofKind kind →
    ∃ e, m.table.entity? x = some e ∧ e.identity.package = name ∧ e.kind = kind
  /-- No package is empty. -/
  filled : ∀ name contents, (name, contents) ∈ m.packages → contents.isEmpty = false
  /-- The packages stand in the order of their names, each once. -/
  packagesAscend : (m.packages.map (·.1)).Pairwise (· < ·)
  /-- Each list is in the order of IDL names.  Equal names are in the order of handles. -/
  listsAscend : ∀ name contents kind, (name, contents) ∈ m.packages →
    (contents.ofKind kind).Pairwise (Precedes m.table)
  /-- As many entities are counted as are in use. -/
  counted : m.entityCount = m.table.idsInUse.length

theorem count_listing (t : SymbolTable) (x : EntityId) :
    (ofTable t).listing.count x = if t.isInUse x = true then 1 else 0 := by
  rw [(listing_perm t).count_eq, t.nodup_idsInUse.count]
  simp only [SymbolTable.mem_idsInUse]

theorem entity_of_mem {name : String} {contents : PackageContents} {kind : EntityKind}
    (hmem : (name, contents) ∈ (ofTable t).packages) (hx : x ∈ contents.ofKind kind) :
    ∃ e, t.entity? x = some e ∧ e.identity.package = name ∧ e.kind = kind := by
  obtain ⟨-, hname, hkind⟩ := (mem_ofKind hmem kind).mp hx
  obtain ⟨e, he, hkind⟩ := (t.kind?_eq_some x).mp hkind
  rw [SymbolTable.packageOf, he] at hname
  exact ⟨e, he, hname, hkind⟩

theorem isEmpty_of_mem {name : String} {contents : PackageContents}
    (hmem : (name, contents) ∈ (ofTable t).packages) : contents.isEmpty = false := by
  obtain ⟨x, hx, hpackage⟩ := mem_packageNames.mp (ofKind_ofTable hmem .interface).2
  have hlisted := (mem_handles hmem).mpr ⟨(t.mem_idsInUse x).mp hx, hpackage⟩
  have hsize := List.length_pos_of_mem hlisted
  rw [length_handles] at hsize
  exact beq_eq_false_iff_ne.mpr (Nat.ne_of_gt hsize)

/-- The pass over the entities in use collects the packages of the model, and these divide the
entities in use among them. -/
theorem packages_partition (t : SymbolTable) :
    (ofTable t).packages = grouped t ∧ (ofTable t).ListsInUse := by
  refine ⟨(grouped_eq t).symm, ?_⟩
  exact {
    once := count_listing t
    own := fun _ _ _ _ => entity_of_mem
    filled := fun _ _ => isEmpty_of_mem
    packagesAscend := map_fst_packages t ▸ pairwise_packageNames t
    listsAscend := fun name _ kind hmem =>
      (ofKind_ofTable hmem kind).1 ▸ pairwise_listed t name kind
    counted := (entityCount_eq _).trans (listing_perm t).length_eq }

end CompiledModel

end IdlModel
