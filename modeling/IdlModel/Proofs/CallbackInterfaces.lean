import IdlModel.Proofs.PureInterfaces
import IdlModel.Proofs.StageRuns

/-!
# Callback interfaces in the compiled model

The rules of callback interfaces are checked once, when a declaration is read.

*Additions.*  A fragment is checked too if it is marked as a callback interface itself, and
a mixin never is.  So merging gives a callback interface whatever its fragments and mixins
have, and it stays pure if and only if they are.

*Later stages.*  They change types, parents, names and events.  A callback interface has
no parent to link, the entities of promises are no callback interfaces, and whether an
interface is pure depends neither on types nor on names.
-/

namespace IdlModel

open Syntax
open SymbolTable

/-! ## What is added -/

/-- All that some definitions add to the interface of a name is pure: its fragments, and the
mixins that it includes with their fragments. -/
structure PureAdditions (documents : List Document) (name : String) : Prop where
  fragments : ∀ d, Defines documents (.interface d) → d.isPartial = true → d.name = name →
    d.isPure = true
  mixins : ∀ s, Defines documents (.includes s) → s.target = name →
    ∀ d, Defines documents (.mixin d) → d.name = s.mixin → d.isPure = true

/-- What waits for an interface is pure if and only if the definitions are. -/
theorem Extracted.pureAdditions_iff {settings : Settings} {documents : List Document}
    {c : Compilation} (h : Extracted settings (located documents) c) (hclean : c.Clean)
    (name : String) :
    ((∀ p ∈ c.fragments.interfaces, p.identity.idl = name → p.IsPure) ∧
      ∀ s ∈ c.fragments.inclusions, s.target = name →
        ∀ m, m ∈ c.table.mixins.toList ∨ m ∈ c.fragments.mixins → m.identity.idl = s.mixin →
          m.members.IsPure) ↔ PureAdditions documents name := by
  constructor
  · rintro ⟨hfragments, hmixins⟩
    constructor
    · intro d hd hpartial hname
      obtain ⟨file, hmem⟩ := defines_iff.mp hd
      have hp := (h.mem_interfaces hclean).mpr ⟨file, d, hmem, hpartial, rfl⟩
      exact isPure_interfaceOf.mp (hfragments _ hp hname)
    · intro s hs htarget d hd hname
      obtain ⟨file, hmem⟩ := defines_iff.mp hs
      obtain ⟨file', hmem'⟩ := defines_iff.mp hd
      have hs' := h.mem_inclusions.mpr ⟨file, s, hmem, rfl⟩
      have hm := (h.mem_mixins hclean).mpr ⟨file', d, hmem', rfl⟩
      exact isPure_mixinOf.mp (hmixins _ hs' htarget _ hm hname)
  · rintro ⟨hfragments, hmixins⟩
    constructor
    · intro p hp hname
      obtain ⟨file, d, hmem, hpartial, rfl⟩ := (h.mem_interfaces hclean).mp hp
      exact isPure_interfaceOf.mpr (hfragments d (defines_iff.mpr ⟨file, hmem⟩) hpartial hname)
    · intro s hs htarget m hm hname
      obtain ⟨file, s, hmem, rfl⟩ := h.mem_inclusions.mp hs
      obtain ⟨file', d, hmem', rfl⟩ := (h.mem_mixins hclean).mp hm
      exact isPure_mixinOf.mpr (hmixins s (defines_iff.mpr ⟨file, hmem⟩) htarget d
        (defines_iff.mpr ⟨file', hmem'⟩) hname)

/-! ## Pure entities -/

/-- If the entity is a callback interface, it has no parent, and it is pure if and only if
`S` holds of its IDL name. -/
def Entity.PureWhere (S : String → Prop) (e : Entity) : Prop :=
  ∀ d, e = .interface d → d.callback = true → d.parent = none ∧ (d.IsPure ↔ S d.identity.idl)

/-- The same for all entities of a table. -/
def SymbolTable.PureWhere (S : String → Prop) (t : SymbolTable) : Prop :=
  ∀ x e, t.entity? x = some e → e.PureWhere S

variable {S : String → Prop} {e e' : Entity}

namespace Entity.PureWhere

/-- This does not depend on types. -/
theorem blank_iff : e.blank.PureWhere S ↔ e.PureWhere S := by
  cases e with
  | interface d =>
      simp only [PureWhere, blank, Entity.interface.injEq, forall_eq', Interface.isPure_blank]
      exact Iff.rfl
  | _ => simp [PureWhere, blank]

/-- It does not depend on anything that a script can change either. -/
theorem outline_iff : e.outline.PureWhere S ↔ e.PureWhere S := by
  cases e with
  | interface d =>
      simp only [PureWhere, outline, Entity.interface.injEq, forall_eq', Interface.isPure_iff,
        Members.isPure_outline]
      exact Iff.rfl
  | _ => simp [PureWhere, outline]

theorem of_blank (h : e.PureWhere S) (hblank : e'.blank = e.blank) : e'.PureWhere S :=
  blank_iff.mp (hblank ▸ blank_iff.mpr h)

theorem of_outline (h : e.PureWhere S) (houtline : e'.outline = e.outline) :
    e'.PureWhere S :=
  outline_iff.mp (houtline ▸ outline_iff.mpr h)

theorem of_ne_interface (h : e.kind ≠ .interface) : e.PureWhere S := by
  rintro d rfl
  exact absurd rfl h

/-- Only an entity that has a parent gets its place. -/
theorem placed {t : SymbolTable} {x : EntityId} (h : e.PureWhere S)
    (he : t.entity? x = some e) : (t.placed x e).PureWhere S := by
  cases hparent : t.parentOf? x with
  | none => rwa [SymbolTable.placed_of_no_parent hparent]
  | some p =>
      cases e with
      | interface d =>
          rw [SymbolTable.placed, hparent]
          rintro _ ⟨⟩ hcallback
          obtain ⟨hnone, _⟩ := h d rfl hcallback
          rw [SymbolTable.parentOf?_eq he, Entity.parent?, hnone] at hparent
          cases hparent
      | _ =>
          refine of_ne_interface fun hkind => ?_
          rw [SymbolTable.kind_placed] at hkind
          cases hkind

end Entity.PureWhere

/-! ## Stages -/

variable {t t₁ t' : SymbolTable} {es : List TypeRef} {x : EntityId}

/-- A callback interface is accepted without a parent and pure, so behind merging it is pure
if and only if all that was added is. -/
theorem Extracted.merged_pureWhere {settings : Settings} {documents : List Document}
    {c : Compilation} (h : Extracted settings (located documents) c) (hclean : c.Clean)
    (ht : c.table.Declared) (hmerged : c.table.Merged c.fragments t')
    (hfound : c.table.AllFound c.fragments t') :
    t'.PureWhere (PureAdditions documents) := by
  rintro x _ he' d' rfl hcallback
  have hkind : c.table.kind? x = some .interface := by
    rw [← hmerged.frame.kinds]
    exact kind?_eq he'
  obtain ⟨d, hd⟩ := c.table.exists_interface x hkind
  obtain ⟨d'', hd'', hextends⟩ := hmerged.extendsTo ht hfound hd
  obtain rfl := Entity.interface.inj (Option.some.inj (hd''.symm.trans he'))
  obtain ⟨hparent, hpure⟩ := Interface.isPure_of_accepted (h.callbacks x d hd)
    (hextends.callback.symm.trans hcallback)
  rw [hextends.parent, hextends.pure, hextends.identity, h.pureAdditions_iff hclean,
    and_iff_right hpure]
  exact ⟨hparent, Iff.rfl⟩

theorem Linker.Finished.pureWhere {l : Linker} (hl : l.Finished t) (h : t.PureWhere S) :
    l.table.PureWhere S := by
  intro x e he
  obtain ⟨e₀, he₀⟩ := hl.linking.entity_before he
  cases hused : l.table.isInUse x with
  | false =>
      rw [hl.linking.unused x hused] at he
      exact h x e he
  | true =>
      obtain ⟨e', he', hrebuilt⟩ := hl.linking.used x e₀ hused he₀
      obtain rfl := Option.some.inj (he'.symm.trans he)
      exact ((h x e₀ he₀).placed he₀).of_blank hrebuilt.blank

theorem SymbolTable.Made.pureWhere (hmade : Made t₁ es t) (h : t₁.PureWhere S) :
    t.PureWhere S := by
  intro x e he
  rcases Nat.lt_or_ge x.index t₁.size with hlt | hge
  · obtain ⟨e₁, he₁, hblank⟩ := hmade.entity_before he hlt
    exact (h x e₁ he₁).of_blank hblank
  · obtain ⟨_, _, j, _, _, _, _, _, hgroup⟩ := hmade.group_entity hge he
    -- only the first of a group is an interface, and it is not marked
    match j with
    | 0 =>
        cases hgroup
        rintro _ ⟨⟩ ⟨⟩
    | 1 | 2 =>
        cases hgroup
        exact .of_ne_interface nofun
    | j + 3 => cases hgroup

theorem MethodNaming.Naming.pureWhere {s : MethodNaming} (hs : Naming t s)
    (h : t.PureWhere S) : s.table.PureWhere S := by
  intro x e' he'
  obtain ⟨e, he, _⟩ := hs.renamed.entity_before he'
  cases e with
  | interface d =>
      obtain ⟨m, hm, houtline⟩ := hs.interfaces x d he
      obtain rfl := Option.some.inj (hm.symm.trans he')
      exact (h x _ he).of_outline (Entity.outline_withMembers houtline)
  | _ =>
      obtain rfl := Option.some.inj ((hs.others x _ he nofun).symm.trans he')
      exact h x _ he

theorem SymbolTable.Edited.pureWhere {D : EntityId → Script.Edit → Prop}
    (hedited : t.Edited D t') (h : t.PureWhere S) : t'.PureWhere S := by
  intro x e' he'
  obtain ⟨e, he, hentity⟩ := hedited.entity_before he'
  exact (h x e he).of_outline hentity.outline_eq

/-! ## The model -/

variable {documents : List Document} {scripts : List Script.Source} {settings : Settings}

/-- The table behind the first two stages. -/
theorem pureWhere_of_merge {extracted merged : Compilation}
    (hextract : runStage (Stage.extract.action documents scripts) .extract { settings } =
      .ok () extracted)
    (hmerge : runStage (Stage.merge.action documents scripts) .merge extracted = .ok () merged) :
    merged.table.PureWhere (PureAdditions documents) := by
  obtain ⟨hdeclare, hextractedClean⟩ := runStage_ok.mp hextract
  obtain ⟨hfold, hmergedClean⟩ := runStage_ok.mp hmerge
  have hdeclared := keeps_declareDocuments documents _ (.fresh settings) () extracted hdeclare
  obtain ⟨hmerged, _⟩ := mergeFragments_spec hfold
  exact (declareDocuments_extracted (.fresh settings) hdeclare).merged_pureWhere
    hextractedClean hdeclared.table hmerged
    (allFound_of_mergeFragments hfold hmergedClean)

/-- In a compiled model a callback interface has no parent, and it is pure if and only if all
that the definitions add to it is. -/
theorem compile_callbackInterface_pure_iff {model : CompiledModel} {final : Compilation}
    (h : compile documents scripts { settings } = .ok model final) :
    ∀ x d, model.table.entity? x = some (.interface d) → d.callback = true →
      d.parent = none ∧ (d.IsPure ↔ PureAdditions documents d.identity.idl) := by
  obtain ⟨extracted, merged, linked, settled, named, finished, hrun, rfl⟩ := compile_ok h
  have hmerged := pureWhere_of_merge hrun.extract hrun.merge
  have hdeclared := declared_of_merge hrun.extract hrun.merge
  obtain ⟨hlink, hclean⟩ := runStage_ok.mp hrun.link
  obtain ⟨l, rfl, hfinished⟩ := linkInterfaces_spec hdeclared hlink hclean
  have hlinked := hfinished.pureWhere hmerged
  have hresolved := hfinished.resolved hdeclared
  obtain ⟨es, hprogress⟩ := progress_of_promise hresolved hrun.promise
  have hsettled := hprogress.made.pureWhere hlinked
  have hrooted := hprogress.rooted hresolved
  obtain ⟨s, hs, hnaming, _⟩ := hrooted.naming (runStage_ok.mp hrun.overrides).1
  have hnamed : named.table.PureWhere (PureAdditions documents) :=
    hs ▸ hnaming.pureWhere hsettled
  have hedited := runScripts_edited named.table scripts named (.refl _) () finished
    (runStage_ok.mp hrun.transform).1
  exact fun x d hd => hedited.pureWhere hnamed x _ hd d rfl

/-- The definitions `callback interface Listener {};` and
`partial interface Listener { attribute long state; };`. -/
def listener : Document :=
  { name := "listener.idl"
    definitions :=
      [.interface { name := "Listener", callback := true },
      .interface
        { name := "Listener"
          isPartial := true
          members := [.attribute { name := "state", type := .named "long" }] }] }

/-- Whether an interface is marked as a callback interface, and the names of its attributes. -/
def SymbolTable.callbackAt (t : SymbolTable) (x : EntityId) : Option (Bool × List String) :=
  match t.entity? x with
  | some (.interface d) => some (d.callback, d.members.attributes.map (·.idl))
  | _ => none

theorem SymbolTable.callbackAt_eq_some {marked : Bool} {names : List String}
    (h : t.callbackAt x = some (marked, names)) :
    ∃ d, t.entity? x = some (.interface d) ∧ d.callback = marked ∧
      d.members.attributes.map (·.idl) = names := by
  unfold callbackAt at h
  split at h
  next d hd =>
    obtain ⟨hmarked, hnames⟩ := Prod.mk.inj (Option.some.inj h)
    exact ⟨d, hd, hmarked, hnames⟩
  next => cases h

theorem compile_listener :
    (answer? (compile [listener] [] { settings := {} })).map
      (fun model => model.table.callbackAt ⟨0⟩) = some (some (true, ["state"])) := by
  decide +kernel

theorem compile_callbackInterface_pure_iff_listener :
    ∃ model final d, compile [listener] [] { settings := {} } = .ok model final ∧
      model.table.entity? ⟨0⟩ = some (.interface d) ∧ d.callback = true ∧ d.parent = none ∧
        (d.IsPure ↔ PureAdditions [listener] d.identity.idl) := by
  obtain ⟨model, final, hrun, hat⟩ := ok_of_answer? compile_listener
  obtain ⟨d, hd, hcallback, _⟩ := callbackAt_eq_some hat
  obtain ⟨hparent, hpure⟩ := compile_callbackInterface_pure_iff hrun ⟨0⟩ d hd hcallback
  exact ⟨model, final, d, hrun, hd, hcallback, hparent, hpure⟩

/-- A fragment can give a callback interface an attribute. -/
theorem exists_callbackInterface_not_pure :
    ∃ (documents : List Document) (scripts : List Script.Source) (settings : Settings)
      (model : CompiledModel) (final : Compilation) (x : EntityId) (d : Interface),
        compile documents scripts { settings } = .ok model final ∧
          model.table.entity? x = some (.interface d) ∧ d.callback = true ∧
            ¬ (d.parent = none ∧ d.IsPure) := by
  obtain ⟨model, final, hrun, hat⟩ := ok_of_answer? compile_listener
  obtain ⟨d, hd, hcallback, hnames⟩ := callbackAt_eq_some hat
  refine ⟨_, _, _, model, final, ⟨0⟩, d, hrun, hd, hcallback, fun ⟨_, hpure⟩ => ?_⟩
  rw [hpure.members.attributes] at hnames
  cases hnames

end IdlModel
