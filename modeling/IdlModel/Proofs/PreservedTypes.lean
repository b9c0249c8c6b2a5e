import IdlModel.Proofs.Restoring
import IdlModel.Proofs.SharedPromises

/-!
# Preserved types

What the promise stage leaves of the types of a linked table.

*Linked entities.*  Nothing but their types changes.  If all declared names are
identifiers, a settled type reads as the type before, up to the string types within
promises.  If not, a declared name may be spelled like another type, and a promise may
get the interface of another one.

*New entities.*  Each of them belongs to the group of a promise.
-/

namespace IdlModel

open Syntax (Document)

namespace SymbolTable

variable {t t₁ : SymbolTable} {es : List TypeRef} {ref u v : TypeRef}

/-! ## Groups -/

theorem IsElement.filled {bound : Nat} (h : t₁.IsElement bound u) : u.Filled := by
  refine h.imp ?_
  rintro s hs hole rfl
  exact hs

theorem Made.group (h : Made t₁ es t) {i : Nat} (hv : es[i]? = some v) :
    t.PromiseGroup (promiseAt (t₁.place i)) v :=
  (h.groups i v hv).group (h.isElement hv).filled

/-- An entity behind the linked ones is in the group of a promise. -/
theorem Made.exists_group (h : Made t₁ es t) {x : EntityId} {e : Entity}
    (hx : t₁.size ≤ x.index) (he : t.entity? x = some e) :
    ∃ made element, t.PromiseGroup made element ∧ x ∈ made.ids := by
  obtain ⟨_, _, j, _, _, hv, rfl, _, hgroup⟩ := h.group_entity hx he
  refine ⟨_, _, h.group hv, ?_⟩
  match j with
  | 0 => exact List.mem_cons_self
  | 1 => exact List.mem_cons_of_mem _ List.mem_cons_self
  | 2 => exact List.mem_cons_of_mem _ (List.mem_cons_of_mem _ List.mem_cons_self)
  | j + 3 => cases hgroup

/-- A handle of a linked entity is no interface of a promise. -/
theorem Made.not_isPromiseInterface (ht₁ : t₁.Resolved) (h : Made t₁ es t) {kind : EntityKind}
    {id : EntityId} (hkind : t₁.kind? id = some kind) :
    ¬ t.IsPromiseInterface (.entity kind id) := by
  rintro ⟨made, element, group, heq⟩
  obtain ⟨_, rfl⟩ := TypeRef.entity.inj heq
  obtain ⟨d, hd, htemplate, _⟩ := group.interface
  obtain ⟨e₁, he₁, _⟩ := (t₁.kind?_eq_some _).mp hkind
  obtain ⟨e, he, hblank⟩ := h.before _ e₁ he₁
  obtain rfl := Option.some.inj (he.symm.trans hd)
  have hnone := (ht₁.declared _ e₁ he₁).1
  rw [← Entity.identity_eq_of_blank hblank] at hnone
  cases hnone.symm.trans htemplate

/-! ## Types -/

/-- The type `u` reads as `ref`, up to the string types within promises. -/
def GivesBack (t : SymbolTable) (ref u : TypeRef) : Prop :=
  ∃ r, IsRestored t u r ∧ r.unifyStrings = ref.unifyStrings

/-- What an open type is settled to reads as the type. -/
theorem Made.exists_restores (ht₁ : t₁.Resolved) (hid : t₁.HasIdentifiers) (h : Made t₁ es t)
    (hopen : t₁.IsOpen ref) (hrecorded : t.Recorded ref) :
    ∃ r, Restores t (t.settle ref) r ∧ r.unifyStrings = ref.unifyStrings := by
  induction ref using TypeRef.partsInduction with
  | step ref ih =>
    cases hpromise : ref.isPromise with
    | false =>
        obtain ⟨rs, hrs⟩ := exists_forall₂ fun s hs => ih s hs (hopen.part hs) (hrecorded.part hs)
        have hlen := hrs.length_eq.symm
        have hsettled : (ref.parts.map t.settle).length = ref.parts.length := List.length_map _
        have hunify : rs.map TypeRef.unifyStrings = ref.parts.map TypeRef.unifyStrings := by
          rw [← List.forall₂_eq_eq_eq, List.forall₂_map_left_iff, List.forall₂_map_right_iff]
          exact (hrs.imp fun _ _ hr => hr.2).flip
        have hhead : ¬ t.IsPromiseInterface (ref.withParts (ref.parts.map t.settle)) := by
          cases ref with
          | entity kind id => exact h.not_isPromiseInterface ht₁ hopen.self.1.1
          | unlinked _ => exact hopen.self.1.elim
          | _ =>
              rintro ⟨_, _, _, heq⟩
              cases heq
        rw [settle_withParts hpromise]
        refine ⟨(ref.withParts (ref.parts.map t.settle)).withParts rs,
          Restores.ofParts hhead ?_, ?_⟩
        · rw [TypeRef.parts_withParts hsettled, List.forall₂_map_left_iff]
          exact hrs.imp fun _ _ hr => hr.1
        · rw [TypeRef.withParts_withParts hsettled hlen,
            TypeRef.unifyStrings_withParts hpromise hlen, hunify,
            ← TypeRef.unifyStrings_node hpromise]
    | true =>
        obtain ⟨element, made, rfl, _, hmade⟩ := hrecorded.self hpromise
        have hpart : element ∈ (TypeRef.parametrized "Promise" [element]).parts :=
          List.mem_singleton_self element
        obtain ⟨r, hr, hunify⟩ := ih element hpart (hopen.part hpart) (hrecorded.part hpart)
        have helement := h.isElement_settle (hopen.part hpart) (hrecorded.part hpart)
        have hdom : r.domStrings = element.domStrings := by
          rw [← TypeRef.domStrings_unifyStrings r, hunify, TypeRef.domStrings_unifyStrings]
        -- The promise may have been made for the other spelling of the element.
        obtain ⟨i, v, hv, rfl, hkeys⟩ := h.recorded _ made hmade
        obtain ⟨r', hr', hsame⟩ : ∃ r', Restores t v r' ∧ r'.domStrings = r.domStrings := by
          rcases hkeys with hkey | hkey
          · rw [← h.spelling_inj ht₁ hid helement (h.isElement hv) hkey]
            exact ⟨r, hr, rfl⟩
          · have hswap := h.spelling_inj ht₁ hid helement (h.isElement hv).swapStrings hkey
            rw [← TypeRef.swapStrings_swapStrings v, ← hswap]
            exact hr.swapStrings
        rw [settle_promise hmade]
        exact ⟨_, .promise (h.group hv) hr', TypeRef.unifyStrings_promise_eq (hsame.trans hdom)⟩

/-- What a type of a linked entity in use is settled to reads as the type. -/
theorem Made.givesBack (ht₁ : t₁.Resolved) (hid : t₁.HasIdentifiers) (h : Made t₁ es t)
    (hlinked : t₁.Linked ref)
    (hfree : (∃ kind id, ref = .entity kind id) ∨ ref.Everywhere t₁.IsFreePart)
    (hsettles : t₁.Settles t ref u) : t.GivesBack ref u := by
  obtain ⟨rfl, hrecorded⟩ := hsettles hid
  rcases hfree with ⟨kind, id, rfl⟩ | hfree
  · have hhandle := h.not_isPromiseInterface ht₁ hlinked.self.1
    exact ⟨.entity kind id, (Restores.leaf hhandle rfl).isRestored, rfl⟩
  · have hopen : t₁.IsOpen ref := fun s hs => ⟨hlinked s hs, hfree s hs⟩
    obtain ⟨r, hr, hunify⟩ := h.exists_restores ht₁ hid hopen hrecorded
    exact ⟨r, hr.isRestored, hunify⟩

/-- A written type reads as itself. -/
theorem givesBack_of_written (h : ref.IsWritten) : t.GivesBack ref ref := by
  have hhandles : ref.Everywhere fun s => s.entity? = none := by
    rcases h with h | ⟨name, rfl⟩
    · refine h.imp fun s hs => ?_
      cases s with
      | entity _ _ => exact hs.elim
      | _ => rfl
    · exact TypeRef.everywhere_of_no_parts rfl rfl
  exact ⟨ref, (Restores.of_no_handles hhandles).isRestored, rfl⟩

end SymbolTable

/-! ## Entities -/

section Progress

variable {t t₁ : SymbolTable} {es : List TypeRef} {x : EntityId} {e₁ : Entity}

/-- The types of a linked entity read as before. -/
theorem Progress.givesBack (ht₁ : t₁.Resolved) (h : Progress t₁ [] es t) (hid : t₁.HasIdentifiers)
    (hunused : t₁.isInUse x = false → TypesWritten e₁.types) (he₁ : t₁.entity? x = some e₁) :
    ∃ e, t.entity? x = some e ∧ e₁.Rebuilt t.GivesBack e := by
  cases hused : t₁.isInUse x with
  | false =>
      have he := (h.ahead x (SymbolTable.lt_of_entity? he₁) (.inr hused)).trans he₁
      refine ⟨e₁, he, rfl, List.forall₂_same.mpr fun ty hty => ⟨rfl, ?_⟩⟩
      exact SymbolTable.givesBack_of_written (hunused hused ty hty)
  | true =>
      obtain ⟨e, he, hrebuilt⟩ := h.behind x e₁ hused List.not_mem_nil he₁
      have htypes := (List.forall₂_and_left _ _).mpr ⟨ht₁.types x e₁ hused he₁, hrebuilt.types⟩
      refine ⟨e, he, hrebuilt.blank, htypes.imp fun _ _ hty => ⟨hty.2.1, ?_⟩⟩
      exact h.made.givesBack ht₁ hid hty.1.1 hty.1.2 hty.2.2.settles

end Progress

/-- Behind linking the types of entities that are not in use are as they were
written. -/
theorem linkDocuments_written {documents : List Document} {settings : Settings}
    {linked : Compilation} (h : linkDocuments documents { settings } = .ok () linked)
    {x : EntityId} {e : Entity} (hused : linked.table.isInUse x = false)
    (he : linked.table.entity? x = some e) : TypesWritten e.types := by
  obtain ⟨merged, hmerge, hlink⟩ := linkDocuments_ok.mp h
  have hdeclared := mergeDocuments_declared hmerge
  obtain ⟨hrun, hclean⟩ := runStage_ok.mp hlink
  obtain ⟨l, rfl, hfinished⟩ := linkInterfaces_spec hdeclared hrun hclean
  have hbefore := (hfinished.linking.unused x hused).symm.trans he
  exact (hdeclared.entities x e hbefore).types

/-- Behind the promise stage every linked entity is as it was but for its types.  If
all declared names are identifiers, its types read as before, up to the string types
within promises.  Every other entity belongs to the group of a promise. -/
theorem linked_types_givenBack {documents : List Document} {settings : Settings}
    {linked settled : Compilation} (h : linkDocuments documents { settings } = .ok () linked)
    (hpromise : runStage instantiatePromises .promise linked = .ok () settled) :
    (∀ x e₁, linked.table.entity? x = some e₁ →
      ∃ e, settled.table.entity? x = some e ∧ e.blank = e₁.blank ∧
        (linked.table.HasIdentifiers → e₁.Rebuilt settled.table.GivesBack e)) ∧
    ∀ x e, linked.table.size ≤ x.index → settled.table.entity? x = some e →
      ∃ made element, settled.table.PromiseGroup made element ∧ x ∈ made.ids := by
  obtain ⟨hresolved, _⟩ := linkDocuments_resolved h
  obtain ⟨es, hprogress⟩ := progress_of_promise hresolved hpromise
  refine ⟨fun x e₁ he₁ => ?_, fun x e hx he => hprogress.made.exists_group hx he⟩
  obtain ⟨e, he, hblank⟩ := hprogress.made.before x e₁ he₁
  refine ⟨e, he, hblank, fun hid => ?_⟩
  obtain ⟨e', he', hgivesBack⟩ := hprogress.givesBack hresolved hid
    (fun hused => linkDocuments_written h hused he₁) he₁
  rwa [Option.some.inj (he'.symm.trans he)] at hgivesBack

theorem linked_types_givenBack_reader :
    ∃ linked settled, linkDocuments [reader] { settings := {} } = .ok () linked ∧
      runStage instantiatePromises .promise linked = .ok () settled ∧
      (∀ x e₁, linked.table.entity? x = some e₁ →
        ∃ e, settled.table.entity? x = some e ∧ e.blank = e₁.blank ∧
          e₁.Rebuilt settled.table.GivesBack e) ∧
      ∀ x e, linked.table.size ≤ x.index → settled.table.entity? x = some e →
        ∃ made element, settled.table.PromiseGroup made element ∧ x ∈ made.ids := by
  have hfinishes : (answer? (settleReader { settings := {} })).map id = some ["Reader"] := by
    decide +kernel
  obtain ⟨_, _, hstages, rfl⟩ := ok_of_answer? hfinishes
  obtain ⟨⟨⟩, _, hlink, hbehind⟩ := bind_ok.mp hstages
  obtain ⟨_, linked, hget, hrest⟩ := bind_ok.mp hbehind
  obtain ⟨rfl, rfl⟩ := get_ok.mp hget
  obtain ⟨⟨⟩, settled, hpromise, hkeys⟩ := bind_ok.mp hrest
  have hid : linked.table.HasIdentifiers := by
    intro name hname
    rw [(pure_ok.mp hkeys).1, List.mem_singleton] at hname
    subst hname
    exact ⟨by decide, by simp [isNamePart, Text.isAsciiAlphanumeric, Text.isAsciiLetter]⟩
  obtain ⟨hlinked, hnew⟩ := linked_types_givenBack hlink hpromise
  refine ⟨linked, settled, hlink, hpromise, fun x e₁ he₁ => ?_, hnew⟩
  obtain ⟨e, he, hblank, hgivesBack⟩ := hlinked x e₁ he₁
  exact ⟨e, he, hblank, hgivesBack hid⟩

/-- An interface with the name `sequence<DOMString>`, and
`interface Source { Promise<sequence<DOMString>> listed(); Promise<N> named(); };` with
this name for `N`. -/
def namesake : Document :=
  { name := "namesake.idl"
    definitions :=
      [.interface { name := "sequence<DOMString>" },
      .interface
        { name := "Source"
          members :=
            [.operation
              { name := some "listed"
                returnType := .generic "Promise" [.sequence (.named "DOMString")] },
            .operation
              { name := some "named"
                returnType := .generic "Promise" [.named "sequence<DOMString>"] }] }] }

/-- The handle of a reference to an entity, with its kind. -/
def TypeRef.handle? : TypeRef → Option (EntityKind × EntityId)
  | .entity kind id => some (kind, id)
  | _ => none

theorem TypeRef.eq_of_handle? {u : TypeRef} {kind : EntityKind} {id : EntityId}
    (h : u.handle? = some (kind, id)) : u = .entity kind id := by
  cases u with
  | entity _ _ =>
      cases h
      rfl
  | _ => cases h

/-- The types of the entity at a place, if there is one. -/
def SymbolTable.typesAt (t : SymbolTable) (x : EntityId) : List (Location × TypeRef) :=
  ((t.entity? x).map Entity.types).getD []

/-- The stages up to the promises.  The answer is which elements of the promises of
`Source` are handles, and what is in their place then. -/
def settleNamesake :
    CompileM (List (List (Option EntityId)) × List (Option (EntityKind × EntityId))) := do
  linkDocuments [namesake]
  let linked ← get
  runStage instantiatePromises .promise
  let settled ← get
  return ((linked.table.typesAt ⟨1⟩).map fun ty => ty.2.unifyStrings.parts.map TypeRef.entity?,
    (settled.table.typesAt ⟨1⟩).map fun ty => ty.2.handle?)

/-- If a declared name is no identifier, two promises with different elements can get
the same interface, and the types of the entity do not read as before. -/
theorem exists_types_not_givenBack :
    ∃ linked settled, linkDocuments [namesake] { settings := {} } = .ok () linked ∧
      runStage instantiatePromises .promise linked = .ok () settled ∧
      ¬ ∀ x e₁, linked.table.entity? x = some e₁ →
        ∃ e, settled.table.entity? x = some e ∧ e₁.Rebuilt settled.table.GivesBack e := by
  have hfinishes : (answer? (settleNamesake { settings := {} })).map id =
      some ([[none], [some ⟨0⟩]], [some (.interface, ⟨2⟩), some (.interface, ⟨2⟩)]) := by
    decide +kernel
  obtain ⟨_, _, hstages, rfl⟩ := ok_of_answer? hfinishes
  obtain ⟨⟨⟩, _, hlink, hbehind⟩ := bind_ok.mp hstages
  obtain ⟨_, linked, hget, hrest⟩ := bind_ok.mp hbehind
  obtain ⟨rfl, rfl⟩ := get_ok.mp hget
  obtain ⟨⟨⟩, _, hpromise, hlast⟩ := bind_ok.mp hrest
  obtain ⟨_, settled, hget', htypes⟩ := bind_ok.mp hlast
  obtain ⟨rfl, rfl⟩ := get_ok.mp hget'
  refine ⟨linked, settled, hlink, hpromise, fun hall => ?_⟩
  obtain ⟨hbefore, hafter⟩ := Prod.mk.inj (pure_ok.mp htypes).1
  cases he₁ : linked.table.entity? ⟨1⟩ with
  | none =>
      rw [SymbolTable.typesAt, he₁] at hbefore
      cases hbefore
  | some e₁ =>
      obtain ⟨e, he, hrebuilt⟩ := hall ⟨1⟩ e₁ he₁
      have hpairs := hrebuilt.types
      simp only [SymbolTable.typesAt, he₁, he, Option.map_some, Option.getD_some] at hbefore hafter
      generalize e₁.types = before at hbefore hpairs
      generalize e.types = after at hafter hpairs
      obtain _ | ⟨hlisted, _ | ⟨hnamed, _⟩⟩ := hpairs
      · cases hbefore
      · simp at hbefore
      · simp only [List.map_cons, List.cons.injEq] at hbefore hafter
        obtain ⟨_, r, hr, hunify⟩ := hlisted
        obtain ⟨_, s, hs, hunify'⟩ := hnamed
        -- Both promises got the interface at 2, which reads in one way.
        rw [TypeRef.eq_of_handle? hafter.1] at hr
        rw [TypeRef.eq_of_handle? hafter.2.1] at hs
        obtain rfl : r = s := (hs r).mp ((hr r).mpr rfl)
        have hlists := hbefore.1.symm.trans ((congrArg (·.parts.map TypeRef.entity?)
          (hunify.symm.trans hunify')).trans hbefore.2.1)
        cases hlists

end IdlModel
