import Mathlib.Data.List.Forall2
import IdlModel.Model.TypeRef

/-!
# Parts of type references

A reference is a head with *parts*, the references directly below it.  Names,
handles, primitive types and placeholders have none.  `TypeRef.partsInduction`
is induction over parts, and `TypeRef.subrefs` lists a reference with all that
lies below it.

`RebuildRule` says how to reason about `TypeRef.rebuildM` in a state monad.  It
asks what the two actions do at one reference, given that the parts were
rebuilt well, and `RebuildRule.run` concludes what a whole walk does.
-/

namespace IdlModel

/-! ## Lists in step -/

section InStep

variable {α β γ : Type} {R : α → β → Prop} {S : α → γ → Prop}

theorem forall₂_of_zip {as : List α} {bs : List β} (hlen : bs.length = as.length)
    (h : ∀ p ∈ as.zip bs, R p.1 p.2) : List.Forall₂ R as bs :=
  List.forall₂_iff_zip.mpr ⟨hlen.symm, fun hp => h _ hp⟩

theorem forall₂_right : ∀ {as : List α} {bs : List β}, List.Forall₂ R as bs →
    ∀ b ∈ bs, ∃ a ∈ as, R a b
  | _, _, .nil => fun _ hb => nomatch hb
  | a :: _, b :: _, .cons hab h => by
      intro b' hb'
      rcases List.mem_cons.mp hb' with rfl | hb'
      · exact ⟨a, List.mem_cons_self, hab⟩
      · obtain ⟨a', ha', hab'⟩ := forall₂_right h b' hb'
        exact ⟨a', List.mem_cons_of_mem a ha', hab'⟩

/-- Two lists in step with a third one are in step with each other. -/
theorem forall₂_join {T : β → γ → Prop} (hT : ∀ a b c, R a b → S a c → T b c) :
    ∀ {as : List α} {bs : List β} {cs : List γ}, List.Forall₂ R as bs → List.Forall₂ S as cs →
      List.Forall₂ T bs cs
  | _, _, _, .nil, .nil => .nil
  | _, _, _, .cons hb hbs, .cons hc hcs => .cons (hT _ _ _ hb hc) (forall₂_join hT hbs hcs)

theorem forall₂_comp {R : α → β → Prop} {S : β → γ → Prop} {T : α → γ → Prop}
    (hT : ∀ a b c, R a b → S b c → T a c) :
    ∀ {as : List α} {bs : List β} {cs : List γ}, List.Forall₂ R as bs → List.Forall₂ S bs cs →
      List.Forall₂ T as cs
  | _, _, _, .nil, .nil => .nil
  | _, _, _, .cons hb hbs, .cons hc hcs => .cons (hT _ _ _ hb hc) (forall₂_comp hT hbs hcs)

/-- If elements in step have something in common, so do the lists. -/
theorem forall₂_split {T : γ → β → Prop} : ∀ {as : List α} {bs : List β},
    List.Forall₂ (fun a b => ∃ c, S a c ∧ T c b) as bs →
      ∃ cs, List.Forall₂ S as cs ∧ List.Forall₂ T cs bs
  | _, _, .nil => ⟨[], .nil, .nil⟩
  | _, _, .cons ⟨c, hac, hcb⟩ h => by
      obtain ⟨cs, hacs, hcbs⟩ := forall₂_split h
      exact ⟨c :: cs, .cons hac hacs, .cons hcb hcbs⟩

theorem forall₂_append {as as' : List α} {bs bs' : List β} (h : as.length = bs.length) :
    List.Forall₂ R (as ++ as') (bs ++ bs') ↔ List.Forall₂ R as bs ∧ List.Forall₂ R as' bs' := by
  induction as generalizing bs with
  | nil =>
    obtain rfl : bs = [] := List.length_eq_zero_iff.mp h.symm
    simp
  | cons a as ih =>
    cases bs with
    | nil => cases h
    | cons b bs =>
        rw [List.cons_append, List.cons_append, List.forall₂_cons, List.forall₂_cons,
          ih (Nat.succ.inj h), and_assoc]

/-- Lists collected along one list are in step if what is collected at each
element is. -/
theorem forall₂_flatMap {ι : Type} {f : ι → List α} {g : ι → List β} {is : List ι}
    (h : ∀ i ∈ is, List.Forall₂ R (f i) (g i)) :
    List.Forall₂ R (is.flatMap f) (is.flatMap g) := by
  induction is with
  | nil => exact .nil
  | cons i is ih =>
    have hi := h i List.mem_cons_self
    rw [List.flatMap_cons, List.flatMap_cons, forall₂_append hi.length_eq]
    exact ⟨hi, ih fun j hj => h j (List.mem_cons_of_mem i hj)⟩

theorem eq_of_forall₂ {as bs : List α} (h : List.Forall₂ (· = ·) as bs) : as = bs := by
  rwa [List.forall₂_eq_eq_eq] at h

end InStep

namespace TypeRef

/-! ## Heads and parts -/

/-- The references directly below a reference, from left to right. -/
def parts : TypeRef → List TypeRef
  | .sequence element => [element]
  | .record key value => [key, value]
  | .parametrized _ args => args
  | .union members => members
  | .nullable inner => [inner]
  | _ => []

/-- The reference with the same head and other parts.  Their number has to be the
same where it is fixed. -/
def withParts : TypeRef → List TypeRef → TypeRef
  | .sequence _, [element] => .sequence element
  | .record _ _, [key, value] => .record key value
  | .parametrized name _, args => .parametrized name args
  | .union _, members => .union members
  | .nullable _, [inner] => .nullable inner
  | t, _ => t

@[simp] theorem withParts_parts (t : TypeRef) : t.withParts t.parts = t := by
  cases t <;> rfl

theorem parts_withParts {t : TypeRef} {us : List TypeRef} (h : us.length = t.parts.length) :
    (t.withParts us).parts = us := by
  cases t with
  | sequence _ => obtain ⟨u, rfl⟩ := List.length_eq_one_iff.mp h; rfl
  | record _ _ => obtain ⟨u, v, rfl⟩ := List.length_eq_two.mp h; rfl
  | nullable _ => obtain ⟨u, rfl⟩ := List.length_eq_one_iff.mp h; rfl
  | parametrized _ _ => rfl
  | union _ => rfl
  | _ => exact (List.length_eq_zero_iff.mp h).symm

theorem withParts_withParts {t : TypeRef} {us vs : List TypeRef}
    (h : us.length = t.parts.length) (h' : vs.length = t.parts.length) :
    (t.withParts us).withParts vs = t.withParts vs := by
  cases t with
  | sequence _ =>
      obtain ⟨u, rfl⟩ := List.length_eq_one_iff.mp h
      obtain ⟨v, rfl⟩ := List.length_eq_one_iff.mp h'
      rfl
  | record _ _ =>
      obtain ⟨u, u', rfl⟩ := List.length_eq_two.mp h
      obtain ⟨v, v', rfl⟩ := List.length_eq_two.mp h'
      rfl
  | nullable _ =>
      obtain ⟨u, rfl⟩ := List.length_eq_one_iff.mp h
      obtain ⟨v, rfl⟩ := List.length_eq_one_iff.mp h'
      rfl
  | _ => rfl

/-- What holds of a reference holds of it with other parts, if it is said of the head
alone. -/
theorem holds_withParts {p : TypeRef → Prop} {t : TypeRef} (h : p t)
    (sequence : ∀ u, p (.sequence u)) (record : ∀ u v, p (.record u v))
    (parametrized : ∀ name us vs, p (.parametrized name us) → p (.parametrized name vs))
    (union : ∀ us, p (.union us)) (nullable : ∀ u, p (.nullable u)) (us : List TypeRef) :
    p (t.withParts us) := by
  unfold withParts
  split
  · exact sequence _
  · exact record _ _
  · exact parametrized _ _ _ h
  · exact union _
  · exact nullable _
  · exact h

/-- A part is smaller than the whole. -/
theorem sizeOf_lt_of_mem_parts {t u : TypeRef} (h : u ∈ t.parts) : sizeOf u < sizeOf t := by
  cases t with
  | parametrized name args =>
      have := List.sizeOf_lt_of_mem (show u ∈ args from h)
      simp only [parametrized.sizeOf_spec]
      omega
  | union members =>
      have := List.sizeOf_lt_of_mem (show u ∈ members from h)
      simp only [union.sizeOf_spec]
      omega
  | record key value =>
      simp only [parts, List.mem_cons, List.not_mem_nil, or_false] at h
      rcases h with rfl | rfl <;> simp only [record.sizeOf_spec] <;> omega
  | sequence element =>
      obtain rfl : u = element := by simpa [parts] using h
      simp
  | nullable inner =>
      obtain rfl : u = inner := by simpa [parts] using h
      simp
  | _ => simp [parts] at h

/-- Induction over parts: a reference has a property if it has it as soon as all
its parts do. -/
theorem partsInduction {motive : TypeRef → Prop}
    (step : ∀ t, (∀ u ∈ t.parts, motive u) → motive t) (t : TypeRef) : motive t :=
  step t fun u h =>
    have := sizeOf_lt_of_mem_parts h
    partsInduction step u
termination_by sizeOf t

/-! ## What lies below a reference -/

mutual

/-- The reference and all that lies below it. -/
def subrefs : TypeRef → List TypeRef
  | .sequence element => .sequence element :: subrefs element
  | .record key value => .record key value :: (subrefs key ++ subrefs value)
  | .parametrized name args => .parametrized name args :: subrefsOf args
  | .union members => .union members :: subrefsOf members
  | .nullable inner => .nullable inner :: subrefs inner
  | leaf => [leaf]

/-- All of this for several references. -/
def subrefsOf : List TypeRef → List TypeRef
  | [] => []
  | t :: ts => subrefs t ++ subrefsOf ts

end

theorem subrefsOf_eq_flatMap (ts : List TypeRef) : subrefsOf ts = ts.flatMap subrefs := by
  induction ts with
  | nil => rfl
  | cons t ts ih => rw [subrefsOf, ih, List.flatMap_cons]

theorem subrefs_eq (t : TypeRef) : t.subrefs = t :: t.parts.flatMap subrefs := by
  cases t <;> simp [subrefs, parts, subrefsOf_eq_flatMap]

theorem mem_subrefs_self (t : TypeRef) : t ∈ t.subrefs := by
  rw [subrefs_eq]
  exact List.mem_cons_self

theorem mem_subrefs_iff {s t : TypeRef} : s ∈ t.subrefs ↔ s = t ∨ ∃ u ∈ t.parts, s ∈ u.subrefs := by
  rw [subrefs_eq, List.mem_cons, List.mem_flatMap]

theorem mem_subrefs_trans {r s t : TypeRef} (h : r ∈ s.subrefs) (h' : s ∈ t.subrefs) :
    r ∈ t.subrefs := by
  induction t using partsInduction with
  | step t ih =>
    rcases mem_subrefs_iff.mp h' with rfl | ⟨u, hu, hs⟩
    · exact h
    · exact mem_subrefs_iff.mpr (.inr ⟨u, hu, ih u hu hs⟩)

/-- A property holds of a reference and of all that lies below it. -/
def Everywhere (p : TypeRef → Prop) (t : TypeRef) : Prop := ∀ s ∈ t.subrefs, p s

theorem everywhere_iff {p : TypeRef → Prop} {t : TypeRef} :
    t.Everywhere p ↔ p t ∧ ∀ u ∈ t.parts, u.Everywhere p := by
  constructor
  · intro h
    exact ⟨h t (mem_subrefs_self t), fun u hu s hs => h s (mem_subrefs_iff.mpr (.inr ⟨u, hu, hs⟩))⟩
  · rintro ⟨ht, hparts⟩ s hs
    rcases mem_subrefs_iff.mp hs with rfl | ⟨u, hu, hs⟩
    · exact ht
    · exact hparts u hu s hs

theorem Everywhere.self {p : TypeRef → Prop} {t : TypeRef} (h : t.Everywhere p) : p t :=
  (everywhere_iff.mp h).1

theorem Everywhere.part {p : TypeRef → Prop} {t u : TypeRef} (h : t.Everywhere p)
    (hu : u ∈ t.parts) : u.Everywhere p :=
  (everywhere_iff.mp h).2 u hu

theorem Everywhere.sub {p : TypeRef → Prop} {s t : TypeRef} (h : t.Everywhere p)
    (hs : s ∈ t.subrefs) : s.Everywhere p :=
  fun _ hr => h _ (mem_subrefs_trans hr hs)

theorem Everywhere.imp {p q : TypeRef → Prop} {t : TypeRef} (h : t.Everywhere p)
    (hpq : ∀ s, p s → q s) : t.Everywhere q :=
  fun s hs => hpq s (h s hs)

theorem everywhere_of_no_parts {p : TypeRef → Prop} {t : TypeRef} (hparts : t.parts = [])
    (h : p t) : t.Everywhere p :=
  everywhere_iff.mpr ⟨h, by simp [hparts]⟩

/-- A rebuilt reference has a property everywhere if its parts do and the new
head does. -/
theorem everywhere_withParts {p : TypeRef → Prop} {t : TypeRef} {us : List TypeRef}
    (hlen : us.length = t.parts.length) (hhead : p (t.withParts us))
    (hparts : ∀ u ∈ us, u.Everywhere p) : (t.withParts us).Everywhere p := by
  rw [everywhere_iff, parts_withParts hlen]
  exact ⟨hhead, hparts⟩

/-! ## Rebuilding without effects -/

/-- The reference rebuilt from the inside out, with a function of each head with its
new parts. -/
def rebuildId (f : TypeRef → TypeRef) (t : TypeRef) : TypeRef :=
  (t.rebuildM (m := Id) (fun _ => pure ()) fun r => pure (f r)).run

theorem rebuildListM_eq_map (f : TypeRef → TypeRef) (ts : List TypeRef) :
    (rebuildListM (m := Id) (fun _ => pure ()) (fun r => pure (f r)) ts).run =
      ts.map (rebuildId f) := by
  induction ts with
  | nil => rfl
  | cons t ts ih => exact congrArg (rebuildId f t :: ·) ih

theorem rebuildId_eq (f : TypeRef → TypeRef) (t : TypeRef) :
    t.rebuildId f = f (t.withParts (t.parts.map (rebuildId f))) := by
  cases t with
  | parametrized name args =>
      exact congrArg (fun us => f (.parametrized name us)) (rebuildListM_eq_map f args)
  | union members => exact congrArg (fun us => f (.union us)) (rebuildListM_eq_map f members)
  | _ => rfl

/-! ## Rebuilding in a state monad -/

section Run

variable {σ : Type} (enter : TypeRef → StateM σ Unit) (leave : TypeRef → StateM σ TypeRef)

/-- A walk enters a reference, rebuilds the parts in order and leaves the rebuilt
reference. -/
theorem run_rebuildM (t : TypeRef) (s : σ) :
    (rebuildM enter leave t).run s =
      (let entered := ((enter t).run s).2
      let rebuilt := (rebuildListM enter leave t.parts).run entered
      (leave (t.withParts rebuilt.1)).run rebuilt.2) := by
  cases t <;> rfl

theorem run_rebuildListM_cons (t : TypeRef) (ts : List TypeRef) (s : σ) :
    (rebuildListM enter leave (t :: ts)).run s =
      (let first := (rebuildM enter leave t).run s
      let rest := (rebuildListM enter leave ts).run first.2
      (first.1 :: rest.1, rest.2)) := rfl

/-- What walks over single references keep is kept by a walk over several. -/
theorem rebuildListM_keeps {enter : TypeRef → StateM σ Unit} {leave : TypeRef → StateM σ TypeRef}
    {Inv : σ → Prop} {ts : List TypeRef} {s : σ}
    (each : ∀ t ∈ ts, ∀ s, Inv s → Inv ((rebuildM enter leave t).run s).2) (hs : Inv s) :
    Inv ((rebuildListM enter leave ts).run s).2 := by
  induction ts generalizing s with
  | nil => exact hs
  | cons t ts ih =>
    rw [run_rebuildListM_cons]
    exact ih (fun u hu => each u (List.mem_cons_of_mem t hu)) (each t List.mem_cons_self s hs)

end Run

/-- What has to be known of the actions of a walk.  `Inv` holds of the state
throughout, `Leads` relates a state to those after it, `Pre` is asked of the
references that are met, `Entered` is what entering one establishes, and `Post`
relates a reference to what it is rebuilt to. -/
structure RebuildRule {σ : Type} (enter : TypeRef → StateM σ Unit)
    (leave : TypeRef → StateM σ TypeRef) (Inv : σ → Prop) (Leads : σ → σ → Prop)
    (Pre : TypeRef → Prop) (Entered : TypeRef → σ → Prop) (Post : TypeRef → TypeRef → σ → Prop) :
    Prop where
  refl : ∀ s, Inv s → Leads s s
  trans : ∀ {s₁ s₂ s₃}, Leads s₁ s₂ → Leads s₂ s₃ → Leads s₁ s₃
  pre_part : ∀ {t u}, Pre t → u ∈ t.parts → Pre u
  entered_leads : ∀ {t s s'}, Leads s s' → Entered t s → Entered t s'
  post_leads : ∀ {t u s s'}, Leads s s' → Post t u s → Post t u s'
  enter : ∀ {t s}, Inv s → Pre t →
    Inv ((enter t).run s).2 ∧ Leads s ((enter t).run s).2 ∧ Entered t ((enter t).run s).2
  leave : ∀ {t us s}, Inv s → Pre t → Entered t s → List.Forall₂ (Post · · s) t.parts us →
    Inv ((leave (t.withParts us)).run s).2 ∧ Leads s ((leave (t.withParts us)).run s).2 ∧
      Post t ((leave (t.withParts us)).run s).1 ((leave (t.withParts us)).run s).2

namespace RebuildRule

variable {σ : Type} {enter : TypeRef → StateM σ Unit} {leave : TypeRef → StateM σ TypeRef}
  {Inv : σ → Prop} {Leads : σ → σ → Prop} {Pre : TypeRef → Prop}
  {Entered : TypeRef → σ → Prop} {Post : TypeRef → TypeRef → σ → Prop}

/-- A walk over several references, if walks over each of them are known. -/
theorem runList (rule : RebuildRule enter leave Inv Leads Pre Entered Post) (ts : List TypeRef)
    (each : ∀ t ∈ ts, ∀ s, Inv s →
      Inv ((rebuildM enter leave t).run s).2 ∧ Leads s ((rebuildM enter leave t).run s).2 ∧
        Post t ((rebuildM enter leave t).run s).1 ((rebuildM enter leave t).run s).2)
    (s : σ) (hs : Inv s) :
    Inv ((rebuildListM enter leave ts).run s).2 ∧ Leads s ((rebuildListM enter leave ts).run s).2 ∧
      List.Forall₂ (Post · · ((rebuildListM enter leave ts).run s).2) ts
        ((rebuildListM enter leave ts).run s).1 := by
  induction ts generalizing s with
  | nil => exact ⟨hs, rule.refl s hs, .nil⟩
  | cons t ts ih =>
    rw [run_rebuildListM_cons]
    obtain ⟨hinv, hleads, hpost⟩ := each t List.mem_cons_self s hs
    obtain ⟨hinv', hleads', hposts⟩ := ih (fun u hu => each u (List.mem_cons_of_mem t hu)) _ hinv
    exact ⟨hinv', rule.trans hleads hleads', .cons (rule.post_leads hleads' hpost) hposts⟩

/-- What a walk does. -/
theorem run (rule : RebuildRule enter leave Inv Leads Pre Entered Post) {t : TypeRef} (ht : Pre t) :
    ∀ {s : σ}, Inv s →
      Inv ((rebuildM enter leave t).run s).2 ∧ Leads s ((rebuildM enter leave t).run s).2 ∧
        Post t ((rebuildM enter leave t).run s).1 ((rebuildM enter leave t).run s).2 := by
  induction t using partsInduction with
  | step t ih =>
    intro s hs
    rw [run_rebuildM]
    obtain ⟨hinv, hleads, hentered⟩ := rule.enter hs ht
    obtain ⟨hinv', hleads', hparts⟩ :=
      rule.runList t.parts (fun u hu s hs => ih u hu (rule.pre_part ht hu) hs) _ hinv
    obtain ⟨hinv'', hleads'', hpost⟩ :=
      rule.leave hinv' ht (rule.entered_leads hleads' hentered) hparts
    exact ⟨hinv'', rule.trans hleads (rule.trans hleads' hleads''), hpost⟩

end RebuildRule

/-- A walk whose actions leave every reference that it meets alone. -/
theorem run_rebuildM_of_fixed {σ : Type} {enter : TypeRef → StateM σ Unit}
    {leave : TypeRef → StateM σ TypeRef} {p : TypeRef → Prop}
    (henter : ∀ t s, (enter t).run s = ((), s)) (hleave : ∀ t s, p t → (leave t).run s = (t, s))
    {t : TypeRef} (h : t.Everywhere p) (s : σ) : (rebuildM enter leave t).run s = (t, s) := by
  have rule : RebuildRule enter leave (fun _ => True) (fun s s' => s' = s) (Everywhere p)
      (fun _ _ => True) (fun t u _ => u = t) :=
    { refl := fun _ _ => rfl
      trans := fun h h' => h'.trans h
      pre_part := fun h hu => h.part hu
      entered_leads := fun _ h => h
      post_leads := fun _ h => h
      enter := fun {t s} _ _ => by
        rw [henter]
        exact ⟨trivial, rfl, trivial⟩
      leave := fun {t us s} _ ht _ hus => by
        obtain rfl := eq_of_forall₂ hus.flip
        rw [withParts_parts, hleave t s ht.self]
        exact ⟨trivial, rfl, rfl⟩ }
  obtain ⟨-, hstate, htype⟩ := rule.run h (s := s) trivial
  exact Prod.ext htype hstate

end TypeRef

end IdlModel
