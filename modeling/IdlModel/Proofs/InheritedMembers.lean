import IdlModel.Proofs.LinkedTypes
import IdlModel.Proofs.SharedPromises

/-!
# Inherited members

What a dictionary inherits, and the members of its ancestors.

*Linking.*  A dictionary gets copies of the members as they are when it is linked.  The
types of the copies and of the members are resolved apart from each other.  But what a
type stands for is told by the table before linking, so they are equal in the end.

*Promises.*  The promises in copies and members are replaced apart from each other too.
What stands for a promise is told by the last table if all declared names are
identifiers.  If not, a later promise can take a spelling over, and only the types may
differ.

*Names.*  Naming methods changes no dictionary.
-/

namespace IdlModel

open Relation (ReflTransGen)
open Syntax (Document)

/-! ## Origins of fields -/

/-- Two lists of fields come from one list: only types changed, each by the relation. -/
def SameOrigin (R : TypeRef → TypeRef → Prop) (ds ds' : List Field) : Prop :=
  ∃ origin, List.Forall₂ (Field.Rebuilt R) origin ds ∧ List.Forall₂ (Field.Rebuilt R) origin ds'

/-- Two lists of fields differ in nothing but types. -/
def SameButTypes (ds ds' : List Field) : Prop := ds.map Field.blank = ds'.map Field.blank

variable {R : TypeRef → TypeRef → Prop} {ds ds' : List Field}

theorem SameOrigin.sameButTypes (h : SameOrigin R ds ds') : SameButTypes ds ds' := by
  obtain ⟨origin, h, h'⟩ := h
  exact (Field.forall₂_rebuilt.mp h).1.trans (Field.forall₂_rebuilt.mp h').1.symm

/-- If the relation is a function, there is one result only. -/
theorem SameOrigin.eq (h : SameOrigin R ds ds') (hR : ∀ t u v, R t u → R t v → u = v) :
    ds = ds' := by
  obtain ⟨origin, h, h'⟩ := h
  refine eq_of_forall₂ (forall₂_join (fun d a b ha hb => ?_) h h')
  have hsource := (Field.source_eq_of_blank ha.blank).trans (Field.source_eq_of_blank hb.blank).symm
  exact Field.eq_of_blank (ha.blank.trans hb.blank.symm)
    (Prod.ext hsource (hR _ _ _ ha.type hb.type))

namespace SymbolTable

variable {t t' : SymbolTable} {x : EntityId} {chain : List EntityId} {S : List Field → List Field → Prop}

/-! ## Members of ancestors -/

/-- The members of the entity at a place. -/
def fieldsOf (t : SymbolTable) (x : EntityId) : List Field :=
  ((t.entity? x).map Entity.fields).getD []

theorem fieldsOf_eq {e : Entity} (he : t.entity? x = some e) : t.fieldsOf x = e.fields := by
  rw [fieldsOf, he]
  rfl

/-- The members of a chain of ancestors, those of the last one first. -/
def inheritance (t : SymbolTable) (chain : List EntityId) : List Field :=
  chain.reverse.flatMap t.fieldsOf

/-- What a dictionary in use inherits is related to the members of its ancestors. -/
def InheritsBy (t : SymbolTable) (S : List Field → List Field → Prop) : Prop :=
  ∀ x d, t.isInUse x = true → t.entity? x = some (.dictionary d) →
    ∃ chain, t.Lineage x chain ∧ S d.inherited (t.inheritance chain)

/-- Every dictionary in use inherits the members of its ancestors, those of the most
distant one first. -/
def InStep (t : SymbolTable) : Prop := t.InheritsBy (· = ·)

theorem InheritsBy.imp {S' : List Field → List Field → Prop} (h : t.InheritsBy S)
    (hS : ∀ ds ds', S ds ds' → S' ds ds') : t.InheritsBy S' := by
  intro x d hused hd
  obtain ⟨chain, hchain, hfields⟩ := h x d hused hd
  exact ⟨chain, hchain, hS _ _ hfields⟩

/-! ### Lineages -/

/-- What parents hand on holds of all ancestors. -/
theorem Lineage.forall_mem {p : EntityId → Prop} (h : t.Lineage x chain) (hx : p x)
    (hstep : ∀ y z, p y → t.HasParent y z → p z) : ∀ y ∈ x :: chain, p y := by
  induction h with
  | root _ => exact fun y hy => List.mem_singleton.mp hy ▸ hx
  | step parent _ ih => exact List.forall_mem_cons.mpr ⟨hx, ih (hstep _ _ hx parent)⟩

theorem Lineage.congr (h : t.Lineage x chain)
    (hparent : ∀ y ∈ x :: chain, t'.parentOf? y = t.parentOf? y) : t'.Lineage x chain := by
  induction h with
  | root parent => exact .root ((hparent _ List.mem_cons_self).trans parent)
  | step parent _ ih =>
      exact .step ((hparent _ List.mem_cons_self).trans parent)
        (ih fun y hy => hparent y (List.mem_cons_of_mem _ hy))

theorem untilRepeated_of_nodup {l : List EntityId} :
    ∀ {seen : List EntityId}, l.Nodup → (∀ y ∈ l, y ∉ seen) → untilRepeated seen l = l := by
  induction l with
  | nil => exact fun _ _ => rfl
  | cons x l ih =>
    intro seen hl hseen
    obtain ⟨hx, hl⟩ := List.nodup_cons.mp hl
    have hrest : untilRepeated (x :: seen) l = l := ih hl fun y hy hmem => by
      rcases List.mem_cons.mp hmem with rfl | hmem
      · exact hx hy
      · exact hseen y (List.mem_cons_of_mem x hy) hmem
    have hnew : ¬ seen.contains x = true := by
      rw [List.contains_iff_mem]
      exact hseen x List.mem_cons_self
    rw [untilRepeated, if_neg hnew, hrest]

/-- The members that a child takes over are those of the lineage. -/
theorem Lineage.lineageFields_eq (h : t.Lineage x chain) :
    t.lineageFields x = t.inheritance (x :: chain) := by
  rw [lineageFields, h.ancestors_eq, untilRepeated_of_nodup h.nodup fun _ _ => List.not_mem_nil]
  rfl

/-- What a dictionary without inherited members inherits when it is placed. -/
theorem Lineage.inherited_placed (h : t.Lineage x chain) {d : Dictionary} (hd : d.inherited = []) :
    ∃ d', t.placed x (.dictionary d) = .dictionary d' ∧ d'.inherited = t.inheritance chain := by
  cases h with
  | root parent => exact ⟨d, placed_of_no_parent parent _, hd⟩
  | step parent rest =>
      unfold HasParent at parent
      refine ⟨_, by rw [placed, parent]; rfl, ?_⟩
      exact rest.lineageFields_eq

end SymbolTable

open SymbolTable

/-! ## Linking -/

namespace Linker

variable {t₀ : SymbolTable} {l : Linker} {x : EntityId}

/-- An entity in use keeps its members, with their types expanded. -/
theorem Finished.fieldsOf (h : l.Finished t₀) (hused : l.table.isInUse x = true) :
    List.Forall₂ (Field.Rebuilt (Expands t₀)) (t₀.fieldsOf x) (l.table.fieldsOf x) := by
  obtain ⟨e, he⟩ := entity?_of_lt (lt_of_isInUse hused)
  obtain ⟨e₀, he₀, hrebuilt⟩ := h.linking.expanded hused (h.done x hused) he
  rw [fieldsOf_eq he, fieldsOf_eq he₀, ← fields_placed (t := t₀) (x := x)]
  exact hrebuilt.fields

/-- Copies and members come from the members before linking. -/
theorem Finished.inStep (ht₀ : t₀.Declared) (h : l.Finished t₀) : l.table.InStep := by
  intro x d hused hd
  have hparent : ∀ y, t₀.parentOf? y = l.table.parentOf? y :=
    fun y => (h.linking.parentOf?_eq ht₀ y).symm
  have hstep : ∀ y z, l.table.isInUse y = true → l.table.HasParent y z →
      l.table.isInUse z = true := by
    intro y z hy hz
    exact (h.done y hy).used z ((hparent y).trans hz)
  obtain ⟨chain, hchain⟩ : ∃ chain, l.table.Lineage x chain := by
    refine exists_lineage fun y hy => (h.resolved ht₀).acyclic y ?_
    induction hy with
    | refl => exact hused
    | tail _ hz ih => exact hstep _ _ ih hz
  have hall := hchain.forall_mem hused hstep
  obtain ⟨e₀, he₀, hrebuilt⟩ := h.linking.expanded hused (h.done x hused) hd
  have hinherited : List.Forall₂ (Field.Rebuilt (Expands t₀)) (t₀.inheritance chain) d.inherited := by
    have hkind : e₀.kind = .dictionary := by
      rw [← kind_placed (t := t₀) (x := x), ← Entity.kind_eq_of_blank hrebuilt.blank]
      rfl
    cases e₀ with
    | dictionary d₀ =>
        have hempty : d₀.inherited = [] := (congrArg Dictionary.inherited
          (Entity.dictionary.inj (ht₀.entities x _ he₀).inherited)).symm
        obtain ⟨d₁, hplaced, hd₁⟩ :=
          (hchain.congr fun y _ => hparent y).inherited_placed hempty
        rw [hplaced] at hrebuilt
        obtain ⟨_, heq, _, _, hfields⟩ := Entity.rebuilt_dictionary.mp hrebuilt
        obtain rfl := Entity.dictionary.inj heq
        exact hd₁ ▸ hfields
    | _ => cases hkind
  have hmembers : List.Forall₂ (Field.Rebuilt (Expands t₀)) (t₀.inheritance chain)
      (l.table.inheritance chain) :=
    forall₂_flatMap fun y hy => h.fieldsOf
      (hall y (List.mem_cons_of_mem x (List.mem_reverse.mp hy)))
  have horigin : SameOrigin (Expands t₀) d.inherited (l.table.inheritance chain) :=
    ⟨_, hinherited, hmembers⟩
  exact ⟨chain, hchain, horigin.eq fun _ _ _ hu hv => hu.det hv⟩

end Linker

/-! ## Promises -/

namespace Progress

variable {t t₁ : SymbolTable} {es : List TypeRef} {x : EntityId}

/-- An entity in use keeps its parent. -/
theorem parentOf?_eq (ht₁ : t₁.Resolved) (h : Progress t₁ [] es t) (hused : t₁.isInUse x = true) :
    t.parentOf? x = t₁.parentOf? x := by
  obtain ⟨e₁, he₁⟩ := entity?_of_lt (lt_of_isInUse hused)
  obtain ⟨e, he, hrebuilt⟩ := h.behind x e₁ hused List.not_mem_nil he₁
  rw [SymbolTable.parentOf?_eq he, SymbolTable.parentOf?_eq he₁,
    Entity.parent?_eq_of_blank hrebuilt.blank]
  cases hp : e₁.parent? with
  | none => rfl
  | some p =>
      obtain ⟨y, rfl, _⟩ := ht₁.parents x e₁ p hused he₁ hp
      rfl

/-- An entity in use keeps its members, with their types settled. -/
theorem fieldsOf (h : Progress t₁ [] es t) (hused : t₁.isInUse x = true) :
    List.Forall₂ (Field.Rebuilt (Settled t₁ t)) (t₁.fieldsOf x) (t.fieldsOf x) := by
  obtain ⟨e₁, he₁⟩ := entity?_of_lt (lt_of_isInUse hused)
  obtain ⟨e, he, hrebuilt⟩ := h.behind x e₁ hused List.not_mem_nil he₁
  rw [fieldsOf_eq he, fieldsOf_eq he₁]
  exact hrebuilt.fields

/-- Copies and members come from the linked members. -/
theorem inheritsBy (ht₁ : t₁.Resolved) (hstep : t₁.InStep) (h : Progress t₁ [] es t) :
    t.InheritsBy (SameOrigin (Settled t₁ t)) := by
  intro x d hused hd
  rcases h.sorts hused hd with ⟨e₁, hused₁, he₁, hrebuilt⟩ | hge
  · have hkind : e₁.kind = .dictionary := (Entity.kind_eq_of_blank hrebuilt.blank).symm
    cases e₁ with
    | dictionary d₁ =>
        obtain ⟨chain, hchain, hinherited⟩ := hstep x d₁ hused₁ he₁
        obtain ⟨_, heq, _, _, hfields⟩ := Entity.rebuilt_dictionary.mp hrebuilt
        obtain rfl := Entity.dictionary.inj heq
        have hall := hchain.forall_mem hused₁ fun y z hy hz => by
          obtain ⟨e, he⟩ := entity?_of_lt hz.lt
          rw [HasParent, SymbolTable.parentOf?_eq he] at hz
          obtain ⟨p, hp, hz⟩ := Option.bind_eq_some_iff.mp hz
          obtain ⟨w, rfl, hw, _⟩ := ht₁.parents y e p hy he hp
          exact Option.some.inj hz ▸ hw
        refine ⟨chain, hchain.congr fun y hy => h.parentOf?_eq ht₁ (hall y hy), _, hfields, ?_⟩
        rw [hinherited]
        exact forall₂_flatMap fun y hy => h.fieldsOf
          (hall y (List.mem_cons_of_mem x (List.mem_reverse.mp hy)))
    | _ => cases hkind
  · exact absurd rfl (h.made.ne_dictionary hge hd)

end Progress

/-! ## Names -/

/-- Naming methods changes no dictionary. -/
theorem MethodNaming.Naming.dictionary_iff {t : SymbolTable} {s : MethodNaming} (h : Naming t s)
    {x : EntityId} {d : Dictionary} :
    s.table.entity? x = some (.dictionary d) ↔ t.entity? x = some (.dictionary d) := by
  constructor
  · intro hd
    obtain ⟨e, he, hentity⟩ := h.renamed.entity_before hd
    have hkind : e.kind ≠ .interface := by
      rw [← hentity.kind]
      exact nofun
    rwa [← h.others x e he hkind, hd] at he
  · exact fun hd => h.others x _ hd nofun

/-- Only dictionaries, marks and parents play a part. -/
theorem SymbolTable.InheritsBy.congr {t t' : SymbolTable} {S : List Field → List Field → Prop}
    (h : t.InheritsBy S) (hparent : ∀ x, t'.parentOf? x = t.parentOf? x)
    (hmarks : ∀ x, t'.isInUse x = t.isInUse x)
    (hdictionary : ∀ x d, t'.entity? x = some (.dictionary d) ↔
      t.entity? x = some (.dictionary d)) : t'.InheritsBy S := by
  have hfields : t'.fieldsOf = t.fieldsOf := by
    have hnone : ∀ {t : SymbolTable} {x}, (∀ d, t.entity? x ≠ some (.dictionary d)) →
        t.fieldsOf x = [] := by
      intro t x hno
      cases he : t.entity? x with
      | none => rw [SymbolTable.fieldsOf, he]; rfl
      | some e =>
          cases e with
          | dictionary d => exact absurd he (hno d)
          | _ => exact fieldsOf_eq he
    funext x
    by_cases hd : ∃ d, t.entity? x = some (.dictionary d)
    · obtain ⟨d, hd⟩ := hd
      rw [fieldsOf_eq hd, fieldsOf_eq ((hdictionary x d).mpr hd)]
    · rw [hnone fun d hd' => hd ⟨d, hd'⟩, hnone fun d hd' => hd ⟨d, (hdictionary x d).mp hd'⟩]
  intro x d hused hd
  obtain ⟨chain, hchain, hS⟩ := h x d ((hmarks x).symm.trans hused) ((hdictionary x d).mp hd)
  refine ⟨chain, hchain.congr fun y _ => hparent y, ?_⟩
  rwa [inheritance, hfields]

/-! ## Stages -/

theorem linkDocuments_inStep {documents : List Document} {settings : Settings}
    {linked : Compilation} (h : linkDocuments documents { settings } = .ok () linked) :
    linked.table.InStep := by
  obtain ⟨merged, hmerge, hlink⟩ := linkDocuments_ok.mp h
  have hdeclared := mergeDocuments_declared hmerge
  obtain ⟨hrun, hclean⟩ := runStage_ok.mp hlink
  obtain ⟨l, rfl, hfinished⟩ := linkInterfaces_spec hdeclared hrun hclean
  exact hfinished.inStep hdeclared

/-- Behind linking every dictionary in use inherits the members of its ancestors, those
of the most distant one first.  Behind the next two stages it still does in everything
but types, and in types too if all declared names are identifiers. -/
theorem linked_inherited_inStep {documents : List Document} {settings : Settings}
    {linked settled named : Compilation}
    (h : linkDocuments documents { settings } = .ok () linked)
    (hpromise : runStage instantiatePromises .promise linked = .ok () settled)
    (hoverrides : runStage resolveMethodNames .overrides settled = .ok () named) :
    linked.table.InStep ∧ named.table.InheritsBy SameButTypes ∧
      (linked.table.HasIdentifiers → named.table.InStep) := by
  obtain ⟨hresolved, _⟩ := linkDocuments_resolved h
  have hlinked := linkDocuments_inStep h
  obtain ⟨es, hprogress⟩ := progress_of_promise hresolved hpromise
  have hsettled := hprogress.inheritsBy hresolved hlinked
  obtain ⟨s, hs, hnaming, _⟩ := (hprogress.rooted hresolved).naming (runStage_ok.mp hoverrides).1
  have hnamed : ∀ {S : List Field → List Field → Prop}, settled.table.InheritsBy S →
      named.table.InheritsBy S := fun hS => hs ▸ hS.congr hnaming.renamed.parentOf?_eq
    hnaming.renamed.marks fun _ _ => hnaming.dictionary_iff
  refine ⟨hlinked, hnamed (hsettled.imp fun _ _ horigin => horigin.sameButTypes), fun hid => ?_⟩
  refine hnamed (hsettled.imp fun _ _ horigin => horigin.eq fun _ _ _ hu hv => ?_)
  exact (hu.settles hid).1.trans (hv.settles hid).1.symm

/-- The definitions `dictionary Base { Promise<USVString> text; };`,
`dictionary Middle : Base { sequence<Promise<Base>> parts; };`,
`dictionary Derived : Middle {};` and
`interface Holder { attribute Derived state; attribute Base base; };`. -/
def holder : Document :=
  { name := "holder.idl"
    definitions :=
      [.dictionary
        { name := "Base"
          members := [{ name := "text", type := .generic "Promise" [.named "USVString"] }] },
      .dictionary
        { name := "Middle"
          inherits := some "Base"
          members :=
            [{ name := "parts", type := .sequence (.generic "Promise" [.named "Base"]) }] },
      .dictionary { name := "Derived", inherits := some "Middle" },
      .interface
        { name := "Holder"
          members :=
            [.attribute { name := "state", type := .named "Derived" },
            .attribute { name := "base", type := .named "Base" }] }] }

/-- The stages up to the names of methods, and the names that were declared. -/
def nameHolder : CompileM (List String) := do
  linkDocuments [holder]
  let linked ← get
  runStage instantiatePromises .promise
  runStage resolveMethodNames .overrides
  return linked.table.names.keys

theorem linked_inherited_inStep_holder :
    ∃ linked settled named, linkDocuments [holder] { settings := {} } = .ok () linked ∧
      runStage instantiatePromises .promise linked = .ok () settled ∧
      runStage resolveMethodNames .overrides settled = .ok () named ∧
      linked.table.HasIdentifiers ∧ linked.table.InStep ∧
      named.table.InheritsBy SameButTypes ∧ named.table.InStep := by
  have hfinishes : (answer? (nameHolder { settings := {} })).map id =
      some ["Base", "Middle", "Derived", "Holder"] := by decide +kernel
  obtain ⟨_, _, hstages, rfl⟩ := ok_of_answer? hfinishes
  obtain ⟨⟨⟩, _, hlink, hbehind⟩ := bind_ok.mp hstages
  obtain ⟨_, linked, hget, hrest⟩ := bind_ok.mp hbehind
  obtain ⟨rfl, rfl⟩ := get_ok.mp hget
  obtain ⟨⟨⟩, settled, hpromise, hrest⟩ := bind_ok.mp hrest
  obtain ⟨⟨⟩, named, hoverrides, hkeys⟩ := bind_ok.mp hrest
  have hid : linked.table.HasIdentifiers := by
    intro name hname
    rw [(pure_ok.mp hkeys).1] at hname
    simp only [List.mem_cons, List.not_mem_nil, or_false] at hname
    rcases hname with rfl | rfl | rfl | rfl <;>
      exact ⟨by decide, by simp [isNamePart, Text.isAsciiAlphanumeric, Text.isAsciiLetter]⟩
  obtain ⟨hlinked, hsame, hnamed⟩ := linked_inherited_inStep hlink hpromise hoverrides
  exact ⟨linked, settled, named, hlink, hpromise, hoverrides, hid, hlinked, hsame, hnamed hid⟩

/-- The definitions `interface N {};`, `dictionary Base { Promise<N> named; };`,
`interface Source { Promise<sequence<DOMString>> listed(); };`,
`dictionary Derived : Base {};` and `interface User { attribute Derived derived; };` with
the name `sequence<USVString>` for `N`. -/
def overtaken : Document :=
  { name := "overtaken.idl"
    definitions :=
      [.interface { name := "sequence<USVString>" },
      .dictionary
        { name := "Base"
          members := [{ name := "named", type := .generic "Promise" [.named "sequence<USVString>"] }] },
      .interface
        { name := "Source"
          members :=
            [.operation
              { name := some "listed"
                returnType := .generic "Promise" [.sequence (.named "DOMString")] }] },
      .dictionary { name := "Derived", inherits := some "Base" },
      .interface
        { name := "User"
          members := [.attribute { name := "derived", type := .named "Derived" }] }] }

/-- What the dictionary at a place inherits. -/
def SymbolTable.inheritedAt (t : SymbolTable) (x : EntityId) : List Field :=
  match t.entity? x with
  | some (.dictionary d) => d.inherited
  | _ => []

/-- The stages up to the names of methods.  The answer is whether `Derived` is in use,
and the handles in what it inherits and in the members of its ancestors. -/
def nameOvertaken : CompileM (Bool × List (Option EntityId) × List (Option EntityId)) := do
  linkDocuments [overtaken]
  runStage instantiatePromises .promise
  runStage resolveMethodNames .overrides
  let named ← get
  return (named.table.isInUse ⟨3⟩, (named.table.inheritedAt ⟨3⟩).map fun d => d.type.entity?,
    (named.table.inheritance (named.table.ancestors ⟨3⟩)).map fun d => d.type.entity?)

/-- If a declared name is no identifier, a promise in an inherited member can get
another interface than in the member itself. -/
theorem exists_inherited_not_inStep :
    ∃ linked settled named, linkDocuments [overtaken] { settings := {} } = .ok () linked ∧
      runStage instantiatePromises .promise linked = .ok () settled ∧
      runStage resolveMethodNames .overrides settled = .ok () named ∧ ¬ named.table.InStep := by
  have hfinishes : (answer? (nameOvertaken { settings := {} })).map id =
      some (true, [some ⟨8⟩], [some ⟨5⟩]) := by decide +kernel
  obtain ⟨_, _, hstages, rfl⟩ := ok_of_answer? hfinishes
  obtain ⟨⟨⟩, linked, hlink, hrest⟩ := bind_ok.mp hstages
  obtain ⟨⟨⟩, settled, hpromise, hrest⟩ := bind_ok.mp hrest
  obtain ⟨⟨⟩, _, hoverrides, hrest⟩ := bind_ok.mp hrest
  obtain ⟨_, named, hget, hanswer⟩ := bind_ok.mp hrest
  obtain ⟨rfl, rfl⟩ := get_ok.mp hget
  obtain ⟨hused, hhandles⟩ := Prod.mk.inj (pure_ok.mp hanswer).1
  obtain ⟨hinherited, hmembers⟩ := Prod.mk.inj hhandles
  refine ⟨linked, settled, named, hlink, hpromise, hoverrides, fun hstep => ?_⟩
  unfold SymbolTable.inheritedAt at hinherited
  split at hinherited
  next d hd =>
    obtain ⟨chain, hchain, heq⟩ := hstep ⟨3⟩ d hused hd
    rw [hchain.ancestors_eq, ← heq] at hmembers
    cases hinherited.symm.trans hmembers
  next => cases hinherited

end IdlModel
