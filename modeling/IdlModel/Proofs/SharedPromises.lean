import IdlModel.Proofs.StageRuns

/-!
# Shared promises

Which promises get the same interface.

*Elements.*  The settled element of a promise in a linked type is an element that
the table has a record for.

*Sharing.*  If all declared names are identifiers, a record belongs to one element
and its exchange of the string types, so two promises have the same interface
exactly if their settled elements are equal or differ in this exchange.
-/

namespace IdlModel

open SymbolTable

namespace SymbolTable

variable {t t₁ : SymbolTable} {es : List TypeRef} {ref u v : TypeRef}

/-! ## Elements -/

/-- An open type whose promises are recorded is settled to an element. -/
theorem Made.isElement_settle (h : Made t₁ es t) (hopen : t₁.IsOpen ref)
    (hrecorded : t.Recorded ref) : t₁.IsElement t.size (t.settle ref) := by
  induction ref using TypeRef.partsInduction with
  | step ref ih =>
    cases hpromise : ref.isPromise with
    | false =>
        rw [settle_withParts hpromise]
        refine TypeRef.everywhere_withParts (List.length_map _) ?_ fun u hu => ?_
        · obtain ⟨hlinked, hfree⟩ := hopen.self
          exact (isElementPart_of_linked hlinked hfree hpromise).withParts _
        · obtain ⟨s, hs, rfl⟩ := List.mem_map.mp hu
          exact ih s hs (hopen.part hs) (hrecorded.part hs)
    | true =>
        obtain ⟨element, made, rfl, _, hmade⟩ := hrecorded.self hpromise
        rw [settle_promise hmade]
        exact h.isElement_interface hmade

/-! ## Sharing -/

/-- Recorded elements have the same interface exactly if they are equal up to the
string types. -/
theorem Made.interface_eq_iff (ht₁ : t₁.Resolved) (hid : t₁.HasIdentifiers) (h : Made t₁ es t)
    (hu : t₁.IsElement t.size u) (hv : t₁.IsElement t.size v) {made made' : PromiseInstance}
    (hmade : t.promise? (t.spelling u) = some made)
    (hmade' : t.promise? (t.spelling v) = some made') :
    made.interface = made'.interface ↔ v = u ∨ v = u.swapStrings := by
  obtain ⟨i, w, hw, rfl, hkeys⟩ := h.recorded _ _ hmade
  obtain ⟨j, w', hw', rfl, hkeys'⟩ := h.recorded _ _ hmade'
  have helement := h.isElement hw
  have helement' := h.isElement hw'
  have hof : ∀ {a b : TypeRef}, t₁.IsElement t.size a → t₁.IsElement t.size b →
      t.spelling a = t.spelling b ∨ t.spelling a = t.spelling b.swapStrings →
        a = b ∨ a = b.swapStrings := fun ha hb =>
    Or.imp (h.spelling_inj ht₁ hid ha hb) (h.spelling_inj ht₁ hid ha hb.swapStrings)
  have huw := hof hu helement hkeys
  have hvw := hof hv helement' hkeys'
  constructor
  · intro heq
    obtain rfl := place_inj (EntityId.mk.inj heq)
    obtain rfl := Option.some.inj (hw'.symm.trans hw)
    rcases huw with rfl | rfl
    · exact hvw
    · rcases hvw with rfl | rfl
      · exact .inr (TypeRef.swapStrings_swapStrings _).symm
      · exact .inl rfl
  · intro heq
    -- Both spellings of the element at `i` are recorded for its promise, so what
    -- is recorded for `v` is that promise.
    have hsame : v = w ∨ v = w.swapStrings := by
      rcases heq with rfl | rfl
      · exact huw
      · rcases huw with rfl | rfl
        · exact .inr rfl
        · exact .inl (TypeRef.swapStrings_swapStrings _)
    obtain ⟨hown, hswapped⟩ := h.exact hid i w hw
    have hrecord : t.promise? (t.spelling v) = some (promiseAt (t₁.place i)) := by
      rcases hsame with rfl | rfl
      · exact hown
      · exact hswapped
    exact congrArg PromiseInstance.interface (Option.some.inj (hrecord.symm.trans hmade'))

/-- A reference occurs in a type of an entity in use. -/
def Occurs (t : SymbolTable) (ref : TypeRef) : Prop :=
  ∃ x e, t.isInUse x = true ∧ t.entity? x = some e ∧ ∃ ty ∈ e.types, ref ∈ ty.2.subrefs

end SymbolTable

namespace Progress

variable {t t₁ : SymbolTable} {es : List TypeRef} {x : EntityId} {e₁ : Entity}

/-- Every linked entity in use is settled. -/
theorem settled (h : Progress t₁ [] es t) (hid : t₁.HasIdentifiers) (hused : t₁.isInUse x = true)
    (he₁ : t₁.entity? x = some e₁) : t.entity? x = some (e₁.mapTypes t.settle) := by
  obtain ⟨e, he, hrebuilt⟩ := h.behind x e₁ hused List.not_mem_nil he₁
  have hsettle : e₁.Rebuilt (fun ref u => u = t.settle ref) e :=
    hrebuilt.imp fun _ _ hsettled => (hsettled.settles hid).1
  rw [he, hsettle.eq_mapTypes]

/-- A promise that occurs has a record for its settled element. -/
theorem recorded (ht₁ : t₁.Resolved) (h : Progress t₁ [] es t) (hid : t₁.HasIdentifiers)
    {element : TypeRef} (hoccurs : t₁.Occurs (.parametrized "Promise" [element])) :
    t₁.IsElement t.size (t.settle element) ∧
      ∃ made, t.promise? (t.spelling (t.settle element)) = some made := by
  obtain ⟨x, e₁, hused, he₁, ty, hty, hsub⟩ := hoccurs
  obtain ⟨e, he, hrebuilt⟩ := h.behind x e₁ hused List.not_mem_nil he₁
  obtain ⟨_, _, _, hsettled⟩ := forall₂_right hrebuilt.types.flip ty hty
  obtain ⟨_, hrecorded⟩ := hsettled.settles hid
  have hopen : t₁.IsOpen ty.2 := by
    obtain ⟨hlinked, ⟨kind, id, hbare⟩ | hfree⟩ := ht₁.types x e₁ hused he₁ ty hty
    · rw [hbare, TypeRef.mem_subrefs_iff] at hsub
      simp [TypeRef.parts] at hsub
    · exact fun s hs => ⟨hlinked s hs, hfree s hs⟩
  have hpart : element ∈ (TypeRef.parametrized "Promise" [element]).parts :=
    List.mem_singleton_self element
  refine ⟨h.made.isElement_settle ((hopen.sub hsub).part hpart) ((hrecorded.sub hsub).part hpart), ?_⟩
  obtain ⟨_, made, heq, _, hmade⟩ := hrecorded _ hsub rfl
  cases heq
  exact ⟨made, hmade⟩

end Progress

/-- Behind linking, if all declared names are identifiers, the promise stage settles
every entity in use, and two promises get the same interface exactly if their
settled elements are equal or differ in the exchange of the string types. -/
theorem linked_promises_shared {documents : List Syntax.Document} {settings : Settings}
    {linked settled : Compilation} (h : linkDocuments documents { settings } = .ok () linked)
    (hid : linked.table.HasIdentifiers)
    (hpromise : runStage instantiatePromises .promise linked = .ok () settled) :
    (∀ x e, linked.table.isInUse x = true → linked.table.entity? x = some e →
      settled.table.entity? x = some (e.mapTypes settled.table.settle)) ∧
    ∀ T U, linked.table.Occurs (.parametrized "Promise" [T]) →
      linked.table.Occurs (.parametrized "Promise" [U]) →
      ∃ i j, settled.table.settle (.parametrized "Promise" [T]) = .entity .interface i ∧
        settled.table.settle (.parametrized "Promise" [U]) = .entity .interface j ∧
        (i = j ↔ settled.table.settle U = settled.table.settle T ∨
          settled.table.settle U = (settled.table.settle T).swapStrings) := by
  obtain ⟨hresolved, _⟩ := linkDocuments_resolved h
  obtain ⟨es, hprogress⟩ := progress_of_promise hresolved hpromise
  refine ⟨fun x e hused he => hprogress.settled hid hused he, fun T U hT hU => ?_⟩
  obtain ⟨helement, made, hmade⟩ := hprogress.recorded hresolved hid hT
  obtain ⟨helement', made', hmade'⟩ := hprogress.recorded hresolved hid hU
  exact ⟨made.interface, made'.interface, settle_promise hmade, settle_promise hmade',
    hprogress.made.interface_eq_iff hresolved hid helement helement' hmade hmade'⟩

/-- The definition
`interface Reader { Promise<DOMString> text(); Promise<sequence<Promise<USVString>>> lines(); };`. -/
def reader : Syntax.Document :=
  { name := "reader.idl"
    definitions :=
      [.interface
        { name := "Reader"
          members :=
            [.operation { name := some "text", returnType := .generic "Promise" [.named "DOMString"] },
            .operation
              { name := some "lines"
                returnType := .generic "Promise"
                  [.sequence (.generic "Promise" [.named "USVString"])] }] }] }

/-- The stages up to the promises, and the names that were declared. -/
def settleReader : CompileM (List String) := do
  linkDocuments [reader]
  let linked ← get
  runStage instantiatePromises .promise
  return linked.table.names.keys

theorem linked_promises_shared_reader :
    ∃ linked settled, linkDocuments [reader] { settings := {} } = .ok () linked ∧
      linked.table.HasIdentifiers ∧
      runStage instantiatePromises .promise linked = .ok () settled ∧
      (∀ x e, linked.table.isInUse x = true → linked.table.entity? x = some e →
        settled.table.entity? x = some (e.mapTypes settled.table.settle)) ∧
      ∀ T U, linked.table.Occurs (.parametrized "Promise" [T]) →
        linked.table.Occurs (.parametrized "Promise" [U]) →
        ∃ i j, settled.table.settle (.parametrized "Promise" [T]) = .entity .interface i ∧
          settled.table.settle (.parametrized "Promise" [U]) = .entity .interface j ∧
          (i = j ↔ settled.table.settle U = settled.table.settle T ∨
            settled.table.settle U = (settled.table.settle T).swapStrings) := by
  have hfinishes : (answer? (settleReader { settings := {} })).map id = some ["Reader"] := by
    decide +kernel
  obtain ⟨_, _, hstages, rfl⟩ := ok_of_answer? hfinishes
  obtain ⟨⟨⟩, _, hlink, hbehind⟩ := bind_ok.mp hstages
  obtain ⟨_, linked, hget, hrest⟩ := bind_ok.mp hbehind
  obtain ⟨rfl, rfl⟩ := get_ok.mp hget
  obtain ⟨⟨⟩, settled, hpromise, hkeys⟩ := bind_ok.mp hrest
  have hid : linked.table.HasIdentifiers := by
    intro name hname
    rw [(pure_ok.mp hkeys).1, List.mem_singleton] at hname
    subst hname
    exact ⟨by decide, by simp [isNamePart, Text.isAsciiAlphanumeric, Text.isAsciiLetter]⟩
  exact ⟨linked, settled, hlink, hid, hpromise, linked_promises_shared hlink hid hpromise⟩

end IdlModel
