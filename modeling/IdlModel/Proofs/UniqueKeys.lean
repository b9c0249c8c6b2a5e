import IdlModel.Proofs.StageRuns

/-!
# Keys in the compiled model

Declared entities go through the index of names, so their IDL names are distinct.
The entities of promises do not.  Their names are put together from the name of the
element, which is not checked against any other name.

So the keys of all entities are distinct exactly if no declared entity is called like
one of a promise, and no two promises have names that agree up to an ending.  This can
fail.  `Promise<float>` and `Promise<unrestricted float>` are two promises with one
name, and a declared interface can be called `PromiseString`.
-/

namespace IdlModel

open SymbolTable

/-! ## Endings -/

theorem append_ending_inj {m n a : String} (h : m ++ a = n ++ a) : m = n := by
  have hlist := congrArg String.toList h
  rw [String.toList_append, String.toList_append] at hlist
  exact String.toList_injective (List.append_cancel_right hlist)

/-- The third letter from the end tells the two callbacks apart. -/
theorem append_endings_ne {m n : String} : m ++ "OnFulfilled" ≠ n ++ "OnRejected" := by
  intro h
  have hletter := congrArg (fun s => s.toList.reverse[2]?) h
  simp only [String.toList_append, List.reverse_append] at hletter
  rw [List.getElem?_append_left (by decide), List.getElem?_append_left (by decide)] at hletter
  exact absurd hletter (by decide)

/-- If two names with endings are equal, one of them is the other one with an ending. -/
theorem append_endings {m n a b : String} (ha : a ∈ promiseEndings) (hb : b ∈ promiseEndings)
    (h : m ++ a = n ++ b) : ∃ c ∈ promiseEndings, m = n ++ c ∨ n = m ++ c := by
  by_cases hab : a = b
  · subst hab
    refine ⟨"", by decide, .inl ?_⟩
    rw [append_ending_inj h, String.append_empty]
  · simp only [promiseEndings, List.mem_cons, List.not_mem_nil, or_false] at ha hb
    rcases ha with rfl | rfl | rfl
    · exact ⟨b, by simpa [promiseEndings] using hb, .inl (by rwa [String.append_empty] at h)⟩
    · rcases hb with rfl | rfl | rfl
      · exact ⟨"OnFulfilled", by decide, .inr (by rw [h, String.append_empty])⟩
      · exact absurd rfl hab
      · exact absurd h append_endings_ne
    · rcases hb with rfl | rfl | rfl
      · exact ⟨"OnRejected", by decide, .inr (by rw [h, String.append_empty])⟩
      · exact absurd h.symm append_endings_ne
      · exact absurd rfl hab

/-- A name with two endings is two names. -/
theorem endings_inj {m a b : String} {i j : Nat} (ha : promiseEndings[i]? = some a)
    (hb : promiseEndings[j]? = some b) (h : m ++ a = m ++ b) : i = j := by
  have hlist := congrArg String.toList h
  rw [String.toList_append, String.toList_append] at hlist
  obtain rfl := String.toList_injective (List.append_cancel_left hlist)
  obtain ⟨hi, _⟩ := List.getElem?_eq_some_iff.mp ha
  exact (List.getElem?_inj hi (by decide : promiseEndings.Nodup)).mp (ha.trans hb.symm)

/-! ## Promises in a table -/

/-- The type of the first parameter of a callback. -/
def Entity.argument? : Entity → Option TypeRef
  | .callback d => d.params.head?.map (·.type)
  | _ => none

theorem Entity.argument?_eq {e e' : Entity} (hkind : e'.kind = e.kind) (htypes : e'.types = e.types) :
    e'.argument? = e.argument? := by
  have hview : ∀ e : Entity, e.kind = .callback → e.argument? = e.types[1]?.map Prod.snd := by
    rintro (_ | _ | _ | d) hcallback
    · cases hcallback
    · cases hcallback
    · cases hcallback
    · cases hparams : d.params <;> simp [argument?, types, Parameter.types, hparams]
  have hnone : ∀ e : Entity, e.kind ≠ .callback → e.argument? = none := by
    rintro (_ | _ | _ | d) hcallback
    · rfl
    · rfl
    · rfl
    · exact absurd rfl hcallback
  by_cases hcallback : e.kind = .callback
  · rw [hview e hcallback, hview e' (hkind.trans hcallback), htypes]
  · rw [hnone e hcallback, hnone e' (hkind ▸ hcallback)]

namespace SymbolTable

variable {t t' t₁ : SymbolTable} {es : List TypeRef} {x y : EntityId} {e : Entity} {u v : TypeRef}

/-- The entity is the interface of a promise of this element.  The callback for the
value is the next entity, and it takes the value. -/
def IsPromiseOf (t : SymbolTable) (x : EntityId) (u : TypeRef) : Prop :=
  (∃ e, t.entity? x = some e ∧ e.kind = .interface ∧ e.identity.template ≠ none) ∧
    (t.entity? ⟨x.index + 1⟩).bind Entity.argument? = some u

/-- The name of the promise of an element. -/
def promiseName (t : SymbolTable) (u : TypeRef) : String :=
  "Promise" ++ u.elementNameWith fun id => displayName (t.keyOf id)

/-- No two entities have the same key. -/
def DistinctKeys (t : SymbolTable) : Prop :=
  ∀ x y e d, t.entity? x = some e → t.entity? y = some d → e.key = d.key → x = y

/-- The names of promises are not taken. -/
structure NamesFree (t : SymbolTable) : Prop where
  declared : ∀ x u y e, t.IsPromiseOf x u → t.entity? y = some e → e.identity.template = none →
    ∀ ending ∈ promiseEndings, e.key ≠ t.promiseName u ++ ending
  promises : ∀ x u y v, t.IsPromiseOf x u → t.IsPromiseOf y v → x ≠ y →
    ∀ ending ∈ promiseEndings, t.promiseName u ≠ t.promiseName v ++ ending

/-- What the keys of a finished table are.  `t₁` is the linked table, and `es` are
the elements of the promises. -/
structure Keyed (t₁ : SymbolTable) (es : List TypeRef) (t : SymbolTable) : Prop where
  declared : ∀ x e, x.index < t₁.size → t.entity? x = some e →
    e.identity.template = none ∧ t₁.lookup? e.key = some (.type x)
  places : ∀ x e, t₁.size ≤ x.index → t.entity? x = some e →
    ∃ (i : Nat) (u : TypeRef) (j : Nat) (ending : String), es[i]? = some u ∧
      promiseEndings[j]? = some ending ∧ x = ⟨t₁.place i + j⟩
  group : ∀ (i : Nat) u (j : Nat) ending, es[i]? = some u → promiseEndings[j]? = some ending →
    ∃ e, t.entity? ⟨t₁.place i + j⟩ = some e ∧ e.identity.template ≠ none ∧
      e.key = t.promiseName u ++ ending ∧ (e.kind = .interface ↔ j = 0)
  argument : ∀ (i : Nat) u, es[i]? = some u →
    (t.entity? ⟨t₁.place i + 1⟩).bind Entity.argument? = some u

namespace Keyed

theorem isPromiseOf (h : Keyed t₁ es t) {i : Nat} (hu : es[i]? = some u) :
    t.IsPromiseOf ⟨t₁.place i⟩ u := by
  obtain ⟨e, he, htemplate, _, hkind⟩ := h.group i u 0 "" hu rfl
  exact ⟨⟨e, he, hkind.mpr rfl, htemplate⟩, h.argument i u hu⟩

theorem of_isPromiseOf (h : Keyed t₁ es t) (hx : t.IsPromiseOf x u) :
    ∃ i : Nat, es[i]? = some u ∧ x = ⟨t₁.place i⟩ := by
  obtain ⟨⟨e, he, hkind, htemplate⟩, hargument⟩ := hx
  have hge : t₁.size ≤ x.index := by
    refine Nat.le_of_not_lt fun hlt => ?_
    exact htemplate (h.declared x e hlt he).1
  obtain ⟨i, v, j, ending, hv, hending, rfl⟩ := h.places x e hge he
  obtain ⟨e', he', _, _, hj⟩ := h.group i v j ending hv hending
  obtain rfl := Option.some.inj (he'.symm.trans he)
  obtain rfl := hj.mp hkind
  obtain rfl := Option.some.inj (hargument.symm.trans (h.argument i v hv))
  exact ⟨i, hv, rfl⟩

/-- Entities with one key are one entity, if the names of promises are free. -/
theorem distinctKeys (h : Keyed t₁ es t) (hfree : t.NamesFree) : t.DistinctKeys := by
  have hmixed : ∀ x y e d, x.index < t₁.size → t₁.size ≤ y.index → t.entity? x = some e →
      t.entity? y = some d → e.key ≠ d.key := by
    intro x y e d hx hy he hd hkey
    obtain ⟨i, u, j, ending, hu, hending, rfl⟩ := h.places y d hy hd
    obtain ⟨d', hd', _, hdkey, _⟩ := h.group i u j ending hu hending
    obtain rfl := Option.some.inj (hd'.symm.trans hd)
    exact hfree.declared _ u x e (h.isPromiseOf hu) he (h.declared x e hx he).1 ending
      (List.mem_of_getElem? hending) (hkey.trans hdkey)
  have hother : ∀ {i k : Nat} {u v : TypeRef}, i ≠ k → es[i]? = some u → es[k]? = some v →
      ∀ ending ∈ promiseEndings, t.promiseName u ≠ t.promiseName v ++ ending := by
    intro i k u v hne hu hv
    refine hfree.promises _ u _ v (h.isPromiseOf hu) (h.isPromiseOf hv) fun heq => ?_
    exact hne (place_inj (EntityId.mk.inj heq))
  intro x y e d he hd hkey
  rcases Nat.lt_or_ge x.index t₁.size with hx | hx
  · rcases Nat.lt_or_ge y.index t₁.size with hy | hy
    · have hlookup := (h.declared x e hx he).2
      rw [hkey, (h.declared y d hy hd).2] at hlookup
      cases hlookup
      rfl
    · exact absurd hkey (hmixed x y e d hx hy he hd)
  · rcases Nat.lt_or_ge y.index t₁.size with hy | hy
    · exact absurd hkey.symm (hmixed y x d e hy hx hd he)
    · obtain ⟨i, u, j, ending, hu, hending, rfl⟩ := h.places x e hx he
      obtain ⟨k, v, l, ending', hv, hending', rfl⟩ := h.places y d hy hd
      obtain ⟨e', he', _, hekey, _⟩ := h.group i u j ending hu hending
      obtain ⟨d', hd', _, hdkey, _⟩ := h.group k v l ending' hv hending'
      obtain rfl := Option.some.inj (he'.symm.trans he)
      obtain rfl := Option.some.inj (hd'.symm.trans hd)
      have hnames := hekey.symm.trans (hkey.trans hdkey)
      by_cases hik : i = k
      · subst hik
        obtain rfl := Option.some.inj (hu.symm.trans hv)
        obtain rfl := endings_inj hending hending' hnames
        rfl
      · obtain ⟨c, hc, hname | hname⟩ := append_endings (List.mem_of_getElem? hending)
          (List.mem_of_getElem? hending') hnames
        · exact absurd hname (hother hik hu hv c hc)
        · exact absurd hname (hother (Ne.symm hik) hv hu c hc)

/-- If the keys are distinct, the names of promises are free. -/
theorem namesFree (h : Keyed t₁ es t) (hdistinct : t.DistinctKeys) : t.NamesFree where
  declared x u y e hx he htemplate ending hmem hkey := by
    obtain ⟨i, hu, rfl⟩ := h.of_isPromiseOf hx
    obtain ⟨j, hending⟩ := List.mem_iff_getElem?.mp hmem
    obtain ⟨d, hd, hdtemplate, hdkey, _⟩ := h.group i u j ending hu hending
    obtain rfl := hdistinct y _ e d he hd (hkey.trans hdkey.symm)
    obtain rfl := Option.some.inj (he.symm.trans hd)
    exact hdtemplate htemplate
  promises x u y v hx hy hne ending hmem hname := by
    obtain ⟨i, hu, rfl⟩ := h.of_isPromiseOf hx
    obtain ⟨k, hv, rfl⟩ := h.of_isPromiseOf hy
    obtain ⟨j, hending⟩ := List.mem_iff_getElem?.mp hmem
    obtain ⟨e, he, _, hekey, _⟩ := h.group i u 0 "" hu rfl
    obtain ⟨d, hd, _, hdkey, _⟩ := h.group k v j ending hv hending
    have heq := hdistinct _ _ e d he hd (by rw [hekey, hdkey, String.append_empty, hname])
    obtain ⟨hlt, _⟩ := List.getElem?_eq_some_iff.mp hending
    change j < 3 at hlt
    obtain ⟨rfl, _⟩ := place_add_inj (Nat.zero_lt_succ 2) hlt (EntityId.mk.inj heq)
    exact hne rfl

end Keyed

end SymbolTable

/-! ## Keys of a finished table -/

namespace Progress

variable {t t₁ t' : SymbolTable} {es : List TypeRef} {x : EntityId} {e : Entity} {u : TypeRef}

/-- Behind the promise stage the exported name of an entity comes from its key. -/
theorem name_eq (ht₁ : t₁.Resolved) (h : Progress t₁ [] es t) (he : t.entity? x = some e) :
    e.identity.name = displayName e.key := by
  rcases Nat.lt_or_ge x.index t₁.size with hlt | hge
  · obtain ⟨e₁, he₁, hblank⟩ := h.made.entity_before he hlt
    rw [Entity.key, Entity.identity_eq_of_blank hblank]
    exact (ht₁.declared x e₁ he₁).2.1
  · obtain ⟨_, _, _, _, _, _, _, _, hpromise⟩ := h.made.promiseEntity hge he
    obtain ⟨_, _, hidentity⟩ := hpromise.identity
    rw [Entity.key, hidentity]
    rfl

/-- The name of a promise is the one that its entities were made with. -/
theorem promiseName_eq (ht₁ : t₁.Resolved) (h : Progress t₁ [] es t) (hrenamed : t.Renamed t')
    (hu : t₁.IsElement t.size u) : t'.promiseName u = "Promise" ++ t.elementName u := by
  refine congrArg ("Promise" ++ ·) (TypeRef.elementNameWith_congr ((h.made.knows hu).imp ?_))
  rintro s hs kind id rfl
  obtain ⟨e, he⟩ := hs kind id rfl
  have hkey : t'.keyOf id = e.key := by
    rw [keyOf, hrenamed.map_entity? Entity.Renamed.key, he]
    rfl
  show displayName (t'.keyOf id) = ((t.entity? id).map (·.identity.name)).getD ""
  rw [hkey, he, Option.map_some, Option.getD_some, h.name_eq ht₁ he]

theorem keyed (ht₁ : t₁.Resolved) (h : Progress t₁ [] es t) (hrenamed : t.Renamed t') :
    Keyed t₁ es t' where
  declared x e' hlt he' := by
    obtain ⟨e, he, hentity⟩ := hrenamed.entity_before he'
    obtain ⟨e₁, he₁, hblank⟩ := h.made.entity_before he hlt
    have hidentity := Entity.identity_eq_of_blank hblank
    rw [hentity.template, hentity.key, Entity.key, hidentity]
    exact ⟨(ht₁.declared x e₁ he₁).1, (ht₁.names _ _).mpr ⟨e₁, he₁, rfl⟩⟩
  places x e' hge he' := by
    obtain ⟨e, he, _⟩ := hrenamed.entity_before he'
    obtain ⟨i, u, j, _, _, hu, rfl, _, hpromise⟩ := h.made.promiseEntity hge he
    obtain ⟨ending, hending, _⟩ := hpromise.identity
    exact ⟨i, u, j, ending, hu, hending, rfl⟩
  group i u j ending hu hending := by
    obtain ⟨package, at_, hgroup⟩ := h.made.groups i u hu
    obtain ⟨hj, _⟩ := List.getElem?_eq_some_iff.mp hending
    change j < 3 at hj
    obtain ⟨d, hd⟩ : ∃ d, (promiseGroup package at_ (t.spelling u) (t.elementName u) u
        (t₁.place i))[j]? = some d := ⟨_, List.getElem?_eq_getElem hj⟩
    have hpromise := isPromiseEntity_of_group hd
    obtain ⟨ending', hending', hidentity⟩ := hpromise.identity
    obtain rfl := Option.some.inj (hending'.symm.trans hending)
    obtain ⟨e', he', hentity⟩ := hrenamed.entities _ _ (hgroup j _ hd).1
    refine ⟨e', he', ?_, ?_, ?_⟩
    · rw [hentity.template, hidentity]
      exact Option.some_ne_none _
    · rw [hentity.key, Entity.key, hidentity, h.promiseName_eq ht₁ hrenamed (h.made.isElement hu)]
      rfl
    · rw [hentity.kind]
      exact hpromise.kind
  argument i u hu := by
    obtain ⟨package, at_, hgroup⟩ := h.made.groups i u hu
    obtain ⟨e', he', hentity⟩ := hrenamed.entities _ _ (hgroup 1 _ rfl).1
    rw [he', Option.bind_some, Entity.argument?_eq hentity.kind hentity.types]
    rfl

end Progress

/-- The keys of a compiled model are distinct exactly if the names of promises are
free. -/
theorem compile_distinctKeys_iff {documents : List Syntax.Document}
    {scripts : List Script.Source} {settings : Settings} {model : CompiledModel}
    {final : Compilation} (h : compile documents scripts { settings } = .ok model final) :
    model.table.DistinctKeys ↔ model.table.NamesFree := by
  obtain ⟨_, _, _, _, _, _, hrun, rfl⟩ := compile_ok h
  have htables := hrun.stageTables
  obtain ⟨es, hprogress⟩ := htables.progress
  have hkeyed := hprogress.keyed htables.resolved htables.settled_renamed
  exact ⟨hkeyed.namesFree, hkeyed.distinctKeys⟩

/-- The definitions `interface PromiseString {};` and
`interface Source { Promise<DOMString> text(); };`. -/
def takenName : Syntax.Document :=
  { name := "taken.idl"
    definitions :=
      [.interface { name := "PromiseString" },
      .interface
        { name := "Source"
          members :=
            [.operation
              { name := some "text", returnType := .generic "Promise" [.named "DOMString"] }] }] }

theorem compile_takenName :
    (answer? (compile [takenName] [] { settings := {} })).map (fun model =>
      ((model.table.entity? ⟨0⟩).map Entity.key, (model.table.entity? ⟨2⟩).map Entity.key)) =
        some (some "PromiseString", some "PromiseString") := by
  decide +kernel

theorem compile_distinctKeys_iff_takenName :
    ∃ model final, compile [takenName] [] { settings := {} } = .ok model final ∧
      (model.table.DistinctKeys ↔ model.table.NamesFree) := by
  obtain ⟨model, final, hrun, _⟩ := ok_of_answer? compile_takenName
  exact ⟨model, final, hrun, compile_distinctKeys_iff hrun⟩

/-- A declared interface and the interface of a promise can have one key. -/
theorem exists_compile_not_distinctKeys :
    ∃ (documents : List Syntax.Document) (scripts : List Script.Source) (settings : Settings)
      (model : CompiledModel) (final : Compilation),
        compile documents scripts { settings } = .ok model final ∧ ¬ model.table.DistinctKeys := by
  obtain ⟨model, final, hrun, hkeys⟩ := ok_of_answer? compile_takenName
  obtain ⟨hdeclared, hmade⟩ := Prod.mk.inj hkeys
  obtain ⟨e, he, hkey⟩ := Option.map_eq_some_iff.mp hdeclared
  obtain ⟨d, hd, hkey'⟩ := Option.map_eq_some_iff.mp hmade
  refine ⟨_, _, _, model, final, hrun, fun hdistinct => ?_⟩
  cases hdistinct _ _ e d he hd (hkey.trans hkey'.symm)

end IdlModel
