import IdlModel.Model.Spelling
import IdlModel.Proofs.Expansion

/-!
# Spellings

What a spelling depends on, and when it can be read back.

*Dependence.*  A spelling, and an element name, depends on the entities that the
type mentions and on nothing else.

*Reading back.*  A type without handles whose names are identifiers is *plain*.
Different plain types have different spellings: `letters_injective`.  The letters
of a plain type can be followed by closing brackets, separators and question
marks, and where they end can always be told.

* The letters up to the first bracket are *words*.  A blank continues them, for
  `unsigned long` is one type, unless it starts ` or `.
* What stands between brackets is a list of types, which is read type by type.
* Question marks are counted.
-/

namespace IdlModel

namespace TypeRef

/-! ## What a spelling depends on -/

theorem spellingsWith_eq_map (f : EntityId → String) (ts : List TypeRef) :
    spellingsWith f ts = ts.map (spellingWith f) := by
  induction ts with
  | nil => rfl
  | cons t ts ih => rw [spellingsWith, ih, List.map_cons]

theorem elementNamesWith_eq_map (f : EntityId → String) (ts : List TypeRef) :
    elementNamesWith f ts = ts.map (elementNameWith f) := by
  induction ts with
  | nil => rfl
  | cons t ts ih => rw [elementNamesWith, ih, List.map_cons]

/-- Two ways to name entities that agree on those in a type. -/
def AgreeOn (f g : EntityId → String) (t : TypeRef) : Prop :=
  t.Everywhere fun s => ∀ kind id, s = .entity kind id → f id = g id

theorem spellingWith_congr {f g : EntityId → String} {t : TypeRef} (h : AgreeOn f g t) :
    t.spellingWith f = t.spellingWith g := by
  induction t using partsInduction with
  | step t ih =>
    have hparts : ∀ u ∈ t.parts, u.spellingWith f = u.spellingWith g := fun u hu =>
      ih u hu (h.part hu)
    cases t with
    | sequence e => simp only [spellingWith, hparts e (by simp [parts])]
    | record k v => simp only [spellingWith, hparts k (by simp [parts]), hparts v (by simp [parts])]
    | nullable e => simp only [spellingWith, hparts e (by simp [parts])]
    | parametrized name args =>
        have hargs : args.map (spellingWith f) = args.map (spellingWith g) := List.map_congr_left hparts
        simp only [spellingWith, spellingsWith_eq_map, hargs]
    | union members =>
        have hmembers : members.map (spellingWith f) = members.map (spellingWith g) := List.map_congr_left hparts
        simp only [spellingWith, spellingsWith_eq_map, hmembers]
    | entity kind id => exact h.self kind id rfl
    | _ => rfl

/-- Types with the same head are spelled alike if their parts are. -/
theorem spellingWith_withParts {f g : EntityId → String} {t : TypeRef} {us : List TypeRef}
    (hhead : t.entity? = none)
    (h : List.Forall₂ (fun s u => spellingWith f s = spellingWith g u) t.parts us) :
    t.spellingWith f = (t.withParts us).spellingWith g := by
  have hmap : ∀ {as bs : List TypeRef},
      List.Forall₂ (fun s u => spellingWith f s = spellingWith g u) as bs →
        as.map (spellingWith f) = bs.map (spellingWith g) := by
    intro as bs h
    rwa [← List.forall₂_eq_eq_eq, List.forall₂_map_left_iff, List.forall₂_map_right_iff]
  cases t with
  | sequence e =>
      cases h with
      | cons he hnil =>
          cases hnil
          simp only [withParts, spellingWith, he]
  | record k v =>
      cases h with
      | cons hk hrest =>
          cases hrest with
          | cons hv hnil =>
              cases hnil
              simp only [withParts, spellingWith, hk, hv]
  | nullable e =>
      cases h with
      | cons he hnil =>
          cases hnil
          simp only [withParts, spellingWith, he]
  | parametrized name args =>
      have hargs : args.map (spellingWith f) = us.map (spellingWith g) := hmap h
      simp only [withParts, spellingWith, spellingsWith_eq_map, hargs]
  | union members =>
      have hmembers : members.map (spellingWith f) = us.map (spellingWith g) := hmap h
      simp only [withParts, spellingWith, spellingsWith_eq_map, hmembers]
  | entity kind id => cases hhead
  | _ =>
      cases h
      rfl

theorem elementNameWith_congr {f g : EntityId → String} {t : TypeRef} (h : AgreeOn f g t) :
    t.elementNameWith f = t.elementNameWith g := by
  induction t using partsInduction with
  | step t ih =>
    have hparts : ∀ u ∈ t.parts, u.elementNameWith f = u.elementNameWith g := fun u hu =>
      ih u hu (h.part hu)
    cases t with
    | sequence e => simp only [elementNameWith, hparts e (by simp [parts])]
    | record k v =>
        simp only [elementNameWith, hparts k (by simp [parts]), hparts v (by simp [parts])]
    | nullable e => simp only [elementNameWith, hparts e (by simp [parts])]
    | parametrized name args =>
        have hargs : args.map (elementNameWith f) = args.map (elementNameWith g) := List.map_congr_left hparts
        simp only [elementNameWith, elementNamesWith_eq_map, hargs]
    | union members =>
        have hmembers : members.map (elementNameWith f) = members.map (elementNameWith g) :=
          List.map_congr_left hparts
        simp only [elementNameWith, elementNamesWith_eq_map, hmembers]
    | entity kind id => exact h.self kind id rfl
    | _ => rfl

end TypeRef

/-! ## Words -/

/-- A letter, a digit or an underscore. -/
def isNamePart (c : Char) : Bool := Text.isAsciiAlphanumeric c || c == '_'

/-- A name of ASCII letters, digits and underscores. -/
def IsIdentifier (name : String) : Prop := name ≠ "" ∧ ∀ c ∈ name.toList, isNamePart c = true

/-- Letters of names, and blanks before letters other than `o`. -/
def isWords : List Char → Bool
  | [] => true
  | ' ' :: c :: cs => c != 'o' && isWords (c :: cs)
  | c :: cs => isNamePart c && isWords cs

/-- Whether a name can start like this. -/
def startsName : List Char → Bool
  | [] => false
  | c :: _ => isNamePart c

/-- Words cannot go on with these letters. -/
def isBreak : List Char → Bool
  | [] => true
  | ' ' :: c :: _ => c == 'o'
  | c :: _ => !isNamePart c && c != ' '

theorem isWords_tail {c : Char} {cs : List Char} (h : isWords (c :: cs) = true) :
    isWords cs = true := by
  unfold isWords at h
  split at h
  next heq => cases heq
  next heq =>
    cases heq
    exact (Bool.and_eq_true_iff.mp h).2
  next heq =>
    cases heq
    exact (Bool.and_eq_true_iff.mp h).2

theorem isBreak_cons {c : Char} {cs : List Char} (hc : isNamePart c = false) (hne : c ≠ ' ') :
    isBreak (c :: cs) = true := by
  cases cs <;> simp [isBreak, hc, hne]

/-- What starts with words is no break. -/
theorem isBreak_words {c : Char} {cs s : List Char} (h : isWords (c :: cs) = true) :
    isBreak (c :: cs ++ s) = false := by
  unfold isWords at h
  split at h
  next heq => cases heq
  next d ds heq =>
    cases heq
    simpa [isBreak] using (Bool.and_eq_true_iff.mp h).1
  next c ds _ heq =>
    cases heq
    have hc := (Bool.and_eq_true_iff.mp h).1
    have hne : c ≠ ' ' := by
      rintro rfl
      cases hc
    cases hrest : cs ++ s <;> simp [isBreak, hc, hne, hrest]

/-- Where words end can be told. -/
theorem words_append_inj {w w' s s' : List Char} (hw : isWords w = true) (hw' : isWords w' = true)
    (hs : isBreak s = true) (hs' : isBreak s' = true) (h : w ++ s = w' ++ s') :
    w = w' ∧ s = s' := by
  induction w generalizing w' with
  | nil =>
    cases w' with
    | nil => exact ⟨rfl, h⟩
    | cons c w' =>
        rw [show s = c :: w' ++ s' from h, isBreak_words hw'] at hs
        cases hs
  | cons c w ih =>
    cases w' with
    | nil =>
        rw [← show c :: w ++ s = s' from h, isBreak_words hw] at hs'
        cases hs'
    | cons c' w' =>
        rw [List.cons_append, List.cons_append, List.cons.injEq] at h
        obtain ⟨hwords, htails⟩ := ih (isWords_tail hw) (isWords_tail hw') h.2
        exact ⟨by rw [h.1, hwords], htails⟩

theorem IsIdentifier.isWords {name : String} (h : IsIdentifier name) :
    isWords name.toList = true := by
  have hall : ∀ cs : List Char, (∀ c ∈ cs, isNamePart c = true) → IdlModel.isWords cs = true := by
    intro cs hcs
    induction cs with
    | nil => rfl
    | cons c cs ih =>
      have hc := hcs c List.mem_cons_self
      have hne : c ≠ ' ' := by
        rintro rfl
        cases hc
      have hrest := ih fun d hd => hcs d (List.mem_cons_of_mem c hd)
      cases cs <;> simp [IdlModel.isWords, hc, hne] at hrest ⊢
      exact hrest
  exact hall _ h.2

theorem IsIdentifier.startsName {name : String} (h : IsIdentifier name) :
    startsName name.toList = true := by
  cases hname : name.toList with
  | nil => exact absurd (String.toList_eq_nil_iff.mp hname) h.1
  | cons c cs => exact h.2 c (hname ▸ List.mem_cons_self)

namespace TypeRef

/-! ## Plain types -/

/-- A part of a plain type: no handle, no placeholder, and names that are
identifiers of no builtin type. -/
def IsPlainPart : TypeRef → Prop
  | .unlinked name => IsFreeName name ∧ IsIdentifier name
  | .parametrized name _ => name ∈ knownGenerics
  | .entity _ _ => False
  | .placeholder _ => False
  | _ => True

theorem IsPlainPart.withParts {t : TypeRef} (h : IsPlainPart t) (us : List TypeRef) :
    IsPlainPart (t.withParts us) := by
  exact holds_withParts h (fun _ => trivial) (fun _ _ => trivial) (fun _ _ _ h => h)
    (fun _ => trivial) (fun _ => trivial) us

/-- A type without handles whose names are identifiers. -/
def Plain (t : TypeRef) : Prop := t.Everywhere IsPlainPart

/-- The letters of the spelling of a type without handles. -/
def letters (t : TypeRef) : List Char := (t.spellingWith fun _ => "").toList

/-- The words before the brackets of a type, and all of a type without them. -/
def head : TypeRef → String
  | .sequence _ => "sequence"
  | .record _ _ => "record"
  | .parametrized name _ => name
  | t => t.spellingWith fun _ => ""

/-- What stands between the brackets of a type. -/
def listed (sep close : List Char) (ts : List TypeRef) : List Char :=
  sep.intercalate (ts.map letters) ++ close

/-- What follows the first of several types, given the others. -/
def listedRest (sep close : List Char) : List TypeRef → List Char
  | [] => close
  | t :: ts => sep ++ listed sep close (t :: ts)

theorem listed_cons (sep close : List Char) (t : TypeRef) (ts : List TypeRef) :
    listed sep close (t :: ts) = t.letters ++ listedRest sep close ts := by
  cases ts with
  | nil => simp [listed, listedRest]
  | cons u us => simp [listed, listedRest, List.intercalate_cons_cons]

/-- Whether a type is spelled with angle brackets. -/
def isAngled : TypeRef → Bool
  | .sequence _ => true
  | .record _ _ => true
  | .parametrized _ _ => true
  | _ => false

theorem letters_angled {t : TypeRef} (h : t.isAngled = true) :
    t.letters = t.head.toList ++ '<' :: listed [',', ' '] ['>'] t.parts := by
  have hopen : "<".toList = ['<'] := rfl
  have hclose : ">".toList = ['>'] := rfl
  have hsep : ", ".toList = [',', ' '] := rfl
  cases t with
  | sequence e =>
      have hword : "sequence<" = "sequence" ++ "<" := rfl
      simp only [letters, spellingWith, head, parts, listed_cons, listedRest, hword, hopen, hclose,
        String.toList_append, List.append_assoc, List.cons_append, List.nil_append]
  | record k v =>
      have hword : "record<" = "record" ++ "<" := rfl
      simp only [letters, spellingWith, head, parts, listed_cons, listedRest, hword, hopen,
        hclose, hsep, String.toList_append, List.append_assoc, List.cons_append, List.nil_append]
  | parametrized name args =>
      simp only [letters, spellingWith, head, parts, listed, hopen, hclose, hsep,
        spellingsWith_eq_map, String.toList_append, String.toList_intercalate, List.map_map,
        List.append_assoc, List.cons_append, List.nil_append, Function.comp_def]
      rfl
  | _ => cases h

theorem letters_union (members : List TypeRef) :
    (union members).letters = '(' :: listed [' ', 'o', 'r', ' '] [')'] members := by
  have hopen : "(".toList = ['('] := rfl
  have hclose : ")".toList = [')'] := rfl
  have hsep : " or ".toList = [' ', 'o', 'r', ' '] := rfl
  simp only [letters, spellingWith, listed, hopen, hclose, hsep, spellingsWith_eq_map,
    String.toList_append, String.toList_intercalate, List.map_map, List.cons_append,
    List.nil_append, Function.comp_def]
  rfl

theorem letters_nullable (t : TypeRef) : (nullable t).letters = t.letters ++ ['?'] := by
  have hmark : "?".toList = ['?'] := rfl
  simp only [letters, spellingWith, hmark, String.toList_append]

/-- Whether a type is spelled without brackets. -/
def isAtom : TypeRef → Bool
  | .primitive _ => true
  | .void => true
  | .any => true
  | .unlinked _ => true
  | _ => false

theorem letters_atom {t : TypeRef} (h : t.isAtom = true) : t.letters = t.head.toList := by
  cases t with
  | primitive _ => rfl
  | void => rfl
  | any => rfl
  | unlinked _ => rfl
  | _ => cases h

/-- The builtin name of an atom is read as the atom. -/
theorem ofName_head {t : TypeRef} (h : t.isAtom = true) (hplain : IsPlainPart t) :
    ofName t.head = t := by
  cases t with
  | primitive p => cases p <;> rfl
  | void => rfl
  | any => rfl
  | unlinked name => exact hplain.1
  | _ => cases h

/-- What a generic type can be called. -/
theorem mem_knownGenerics {name : String} :
    name ∈ knownGenerics ↔ name = "Promise" ∨ name = "FrozenArray" ∨ name = "ObservableArray" := by
  simp [knownGenerics]

/-- A plain type without brackets, or with angle brackets, starts with words. -/
theorem head_words {t : TypeRef} (h : t.isAtom = true ∨ t.isAngled = true)
    (hplain : IsPlainPart t) :
    startsName t.head.toList = true ∧ isWords t.head.toList = true := by
  have hname : ∀ name ∈ ["void", "any", "sequence", "record", "Promise", "FrozenArray",
      "ObservableArray"], startsName name.toList = true ∧ isWords name.toList = true := by decide
  cases t with
  | primitive p => cases p <;> decide
  | void => exact hname "void" (by decide)
  | any => exact hname "any" (by decide)
  | unlinked name => exact ⟨hplain.2.startsName, hplain.2.isWords⟩
  | sequence _ => exact hname "sequence" (by decide)
  | record _ _ => exact hname "record" (by decide)
  | parametrized name _ =>
      rcases mem_knownGenerics.mp hplain with rfl | rfl | rfl
      · exact hname "Promise" (by decide)
      · exact hname "FrozenArray" (by decide)
      · exact hname "ObservableArray" (by decide)
  | union _ => rcases h with h | h <;> cases h
  | nullable _ => rcases h with h | h <;> cases h
  | entity _ _ => rcases h with h | h <;> cases h
  | placeholder _ => rcases h with h | h <;> cases h

/-- Angled types with equal heads and equal parts are equal. -/
theorem eq_of_angled {t u : TypeRef} (ht : t.isAngled = true) (hu : u.isAngled = true)
    (htp : IsPlainPart t) (hup : IsPlainPart u) (hhead : t.head = u.head)
    (hparts : t.parts = u.parts) : t = u := by
  have hne : ∀ name ∈ knownGenerics, "sequence" ≠ name ∧ "record" ≠ name := by decide
  cases t with
  | sequence e =>
      cases u with
      | sequence _ => rw [List.head_eq_of_cons_eq hparts]
      | record _ _ => exact absurd hhead (show "sequence" ≠ "record" by decide)
      | parametrized name _ => exact absurd hhead (hne name hup).1
      | _ => cases hu
  | record k v =>
      cases u with
      | sequence _ => exact absurd hhead (show "record" ≠ "sequence" by decide)
      | record _ _ =>
          injection hparts with hk hrest
          injection hrest with hv _
          rw [hk, hv]
      | parametrized name _ => exact absurd hhead (hne name hup).2
      | _ => cases hu
  | parametrized name args =>
      cases u with
      | sequence _ => exact absurd hhead.symm (hne name htp).1
      | record _ _ => exact absurd hhead.symm (hne name htp).2
      | parametrized name' args' =>
          obtain rfl : name = name' := hhead
          obtain rfl : args = args' := hparts
          rfl
      | _ => cases hu
  | _ => cases ht

/-! ## Reading lists -/

/-- What can follow a type. -/
def isStop : List Char → Bool
  | [] => true
  | ' ' :: c :: _ => c == 'o'
  | c :: _ => c == '>' || c == ',' || c == ')'

/-- A type that can be read back from its letters, whatever follows them. -/
def ReadsBack (t : TypeRef) : Prop :=
  ∀ u : TypeRef, u.Plain → ∀ s s' : List Char, isStop s = true → isStop s' = true →
    t.letters ++ s = u.letters ++ s' → t = u ∧ s = s'

/-- The letters of a plain type start with a name or a bracket. -/
theorem letters_start {t : TypeRef} (h : t.Plain) :
    ∃ c cs, t.letters = c :: cs ∧ (isNamePart c = true ∨ c = '(') := by
  have hhead : ∀ t : TypeRef, IsPlainPart t → t.isAtom = true ∨ t.isAngled = true →
      ∃ c cs, t.head.toList = c :: cs ∧ (isNamePart c = true ∨ c = '(') := by
    intro t hplain ht
    have hstart := (head_words ht hplain).1
    cases htl : t.head.toList with
    | nil =>
        rw [htl] at hstart
        cases hstart
    | cons c cs =>
        rw [htl] at hstart
        exact ⟨c, cs, rfl, .inl hstart⟩
  induction t using partsInduction with
  | step t ih =>
    by_cases hatom : t.isAtom = true
    · rw [letters_atom hatom]
      exact hhead t h.self (.inl hatom)
    by_cases hangled : t.isAngled = true
    · obtain ⟨c, cs, htl, hc⟩ := hhead t h.self (.inr hangled)
      rw [letters_angled hangled, htl]
      exact ⟨c, _, rfl, hc⟩
    cases t with
    | union members => exact ⟨'(', _, letters_union members, .inr rfl⟩
    | nullable inner =>
        have hinner : inner ∈ (nullable inner).parts := List.mem_singleton_self inner
        obtain ⟨c, cs, hletters, hc⟩ := ih inner hinner (h.part hinner)
        exact ⟨c, cs ++ ['?'], by rw [letters_nullable, hletters]; rfl, hc⟩
    | entity _ _ => exact h.self.elim
    | placeholder _ => exact h.self.elim
    | _ => simp [isAtom, isAngled] at hatom hangled

/-- Lists of types that can be read back can be read back up to the closing bracket
`b`.  The separator starts with `a`. -/
theorem listed_inj {a b : Char} {sep : List Char} (hsep : ∀ s, isStop (a :: sep ++ s) = true)
    (hclose : ∀ s, isStop (b :: s) = true) (hab : a ≠ b) (hname : isNamePart b = false)
    (hopen : b ≠ '(') {ts us : List TypeRef} (hts : ∀ t ∈ ts, t.Plain ∧ t.ReadsBack)
    (hus : ∀ u ∈ us, u.Plain) {s s' : List Char}
    (h : listed (a :: sep) [b] ts ++ s = listed (a :: sep) [b] us ++ s') : ts = us ∧ s = s' := by
  have hstart : ∀ (t : TypeRef) (ts : List TypeRef) (r r' : List Char), t.Plain →
      listed (a :: sep) [b] (t :: ts) ++ r ≠ b :: r' := by
    intro t ts r r' ht heq
    obtain ⟨c, cs, hletters, hc⟩ := letters_start ht
    rw [listed_cons, hletters] at heq
    obtain rfl : c = b := (List.cons.inj heq).1
    rcases hc with hc | hc
    · rw [hname] at hc
      cases hc
    · exact hopen hc
  have hstop : ∀ (ts : List TypeRef) (r : List Char),
      isStop (listedRest (a :: sep) [b] ts ++ r) = true := by
    intro ts r
    cases ts with
    | nil => exact hclose r
    | cons t ts =>
        rw [listedRest, List.append_assoc]
        exact hsep _
  induction ts generalizing us with
  | nil =>
    cases us with
    | nil => exact ⟨rfl, (List.cons.inj h).2⟩
    | cons u us => exact absurd h.symm (hstart u us s' s (hus u List.mem_cons_self))
  | cons t ts ih =>
    cases us with
    | nil => exact absurd h (hstart t ts s s' (hts t List.mem_cons_self).1)
    | cons u us =>
        rw [listed_cons, listed_cons, List.append_assoc, List.append_assoc] at h
        obtain ⟨rfl, hrest⟩ := (hts t List.mem_cons_self).2 u (hus u List.mem_cons_self) _ _
          (hstop ts s) (hstop us s') h
        cases ts with
        | nil =>
            cases us with
            | nil => exact ⟨rfl, (List.cons.inj hrest).2⟩
            | cons u us => exact absurd (List.cons.inj hrest).1.symm hab
        | cons t' ts =>
            cases us with
            | nil => exact absurd (List.cons.inj hrest).1 hab
            | cons u' us =>
                rw [listedRest, listedRest, List.append_assoc, List.append_assoc,
                  List.append_cancel_left_eq] at hrest
                obtain ⟨heq, hs⟩ := ih (fun x hx => hts x (List.mem_cons_of_mem t hx))
                  (fun x hx => hus x (List.mem_cons_of_mem t hx)) hrest
                exact ⟨by rw [heq], hs⟩

/-! ## Reading types -/

/-- A type below `n` question marks. -/
def nullables : Nat → TypeRef → TypeRef
  | 0, t => t
  | n + 1, t => nullables n (.nullable t)

/-- What can follow a type, below its question marks. -/
theorem marks_cons {s : List Char} (hs : isStop s = true) (n : Nat) :
    isBreak (List.replicate n '?' ++ s) = true ∧ (List.replicate n '?' ++ s).head? ≠ some '<' := by
  cases n with
  | succ n => exact ⟨rfl, by simp [List.replicate_succ]⟩
  | zero =>
    show isBreak s = true ∧ s.head? ≠ some '<'
    unfold isStop at hs
    split at hs
    next => exact ⟨rfl, nofun⟩
    next c _ => exact ⟨hs, by simp⟩
    next c cs _ =>
      simp only [Bool.or_eq_true, beq_iff_eq] at hs
      rcases hs with (rfl | rfl) | rfl
      · exact ⟨isBreak_cons rfl (by decide), by simp⟩
      · exact ⟨isBreak_cons rfl (by decide), by simp⟩
      · exact ⟨isBreak_cons rfl (by decide), by simp⟩

theorem marks_inj {s s' : List Char} (hs : isStop s = true) (hs' : isStop s' = true) {m n : Nat}
    (h : List.replicate m '?' ++ s = List.replicate n '?' ++ s') : m = n ∧ s = s' := by
  induction m generalizing n with
  | zero =>
    cases n with
    | zero => exact ⟨rfl, h⟩
    | succ n =>
        rw [show s = '?' :: (List.replicate n '?' ++ s') from h] at hs
        cases hs
  | succ m ih =>
    cases n with
    | zero =>
        rw [← show '?' :: (List.replicate m '?' ++ s) = s' from h] at hs'
        cases hs'
    | succ n =>
        obtain ⟨rfl, hss⟩ := ih (List.cons.inj h).2
        exact ⟨rfl, hss⟩

/-- The three shapes of plain types without a question mark of their own. -/
inductive Shape (t : TypeRef) (r : List Char) : List Char → List Char → Prop
  | atom (h : t.isAtom = true) : Shape t r t.head.toList r
  | angled (h : t.isAngled = true) :
      Shape t r t.head.toList ('<' :: (listed [',', ' '] ['>'] t.parts ++ r))
  | union (members : List TypeRef) (h : t = .union members) :
      Shape t r [] ('(' :: (listed [' ', 'o', 'r', ' '] [')'] members ++ r))

/-- A plain type starts with words, which end at a break. -/
theorem exists_shape {t : TypeRef} (ht : t.Plain) (hbase : ∀ inner, t ≠ nullable inner)
    {r : List Char} (hr : isBreak r = true) : ∃ w rest, t.Shape r w rest ∧
      t.letters ++ r = w ++ rest ∧ isWords w = true ∧ isBreak rest = true := by
  by_cases hatom : t.isAtom = true
  · refine ⟨_, _, .atom hatom, ?_, (head_words (.inl hatom) ht.self).2, hr⟩
    rw [letters_atom hatom]
  by_cases hangled : t.isAngled = true
  · refine ⟨_, _, .angled hangled, ?_, (head_words (.inr hangled) ht.self).2, ?_⟩
    · rw [letters_angled hangled, List.append_assoc]
      rfl
    · exact isBreak_cons rfl (by decide)
  cases t with
  | union members =>
      refine ⟨_, _, .union members rfl, ?_, rfl, ?_⟩
      · rw [letters_union]
        rfl
      · exact isBreak_cons rfl (by decide)
  | nullable inner => exact absurd rfl (hbase inner)
  | entity _ _ => exact ht.self.elim
  | placeholder _ => exact ht.self.elim
  | _ => simp [isAtom, isAngled] at hatom hangled

/-- Plain types without a question mark of their own can be told apart if their
parts can be read back. -/
theorem base_inj {t u : TypeRef} (ht : t.Plain) (hu : u.Plain)
    (htn : ∀ inner, t ≠ nullable inner) (hun : ∀ inner, u ≠ nullable inner)
    (hparts : ∀ p ∈ t.parts, p.ReadsBack) {r r' : List Char} (hr : isBreak r = true)
    (hr' : isBreak r' = true) (hne : r.head? ≠ some '<') (hne' : r'.head? ≠ some '<')
    (h : t.letters ++ r = u.letters ++ r') : t = u ∧ r = r' := by
  obtain ⟨w, rest, hshape, hsplit, hwords, hbreak⟩ := exists_shape ht htn hr
  obtain ⟨w', rest', hshape', hsplit', hwords', hbreak'⟩ := exists_shape hu hun hr'
  rw [hsplit, hsplit'] at h
  obtain ⟨hw, hrest⟩ := words_append_inj hwords hwords' hbreak hbreak' h
  have hempty : ∀ t : TypeRef, t.Plain → t.isAtom = true ∨ t.isAngled = true →
      t.head.toList ≠ [] := by
    intro t ht hhead hnil
    have := (head_words hhead ht.self).1
    rw [hnil] at this
    cases this
  have hlists : ∀ p ∈ t.parts, p.Plain ∧ p.ReadsBack := fun p hp => ⟨ht.part hp, hparts p hp⟩
  cases hshape with
  | atom hatom =>
      cases hshape' with
      | atom hatom' =>
          refine ⟨?_, hrest⟩
          rw [← ofName_head hatom ht.self, ← ofName_head hatom' hu.self, String.toList_inj.mp hw]
      | angled _ => exact absurd (congrArg List.head? hrest) hne
      | union _ _ => exact absurd hw (hempty t ht (.inl hatom))
  | angled hangled =>
      cases hshape' with
      | atom _ => exact absurd (congrArg List.head? hrest.symm) hne'
      | angled hangled' =>
          obtain ⟨hequal, hr⟩ := listed_inj (fun _ => rfl) (fun s => by cases s <;> rfl) (by decide)
            rfl (by decide) hlists (fun _ hp => hu.part hp) (List.cons.inj hrest).2
          exact ⟨eq_of_angled hangled hangled' ht.self hu.self (String.toList_inj.mp hw) hequal, hr⟩
      | union _ _ => exact absurd hw (hempty t ht (.inr hangled))
  | union members hunion =>
      cases hshape' with
      | atom hatom' => exact absurd hw.symm (hempty u hu (.inl hatom'))
      | angled hangled' => exact absurd hw.symm (hempty u hu (.inr hangled'))
      | union members' hunion' =>
          subst hunion hunion'
          obtain ⟨hequal, hr⟩ := listed_inj (fun _ => rfl) (fun s => by cases s <;> rfl) (by decide)
            rfl (by decide) hlists (fun _ hp => hu.part hp) (List.cons.inj hrest).2
          exact ⟨congrArg TypeRef.union hequal, hr⟩

/-- Below question marks plain types can be told apart.  The two are taken apart in
turn, and the marks are counted. -/
theorem nullables_inj {t u : TypeRef} (ht : t.Plain) (hu : u.Plain) {m n : Nat}
    {s s' : List Char} (hs : isStop s = true) (hs' : isStop s' = true)
    (h : t.letters ++ (List.replicate m '?' ++ s) = u.letters ++ (List.replicate n '?' ++ s')) :
    t.nullables m = u.nullables n ∧ s = s' := by
  have hmark : ∀ (v : TypeRef) (k : Nat) (r : List Char), (nullable v).letters ++
      (List.replicate k '?' ++ r) = v.letters ++ (List.replicate (k + 1) '?' ++ r) := by
    intro v k r
    rw [letters_nullable, List.append_assoc]
    rfl
  induction t using partsInduction generalizing u m n s s' with
  | step t ih =>
    by_cases htn : ∃ inner, t = nullable inner
    · obtain ⟨inner, rfl⟩ := htn
      have hinner : inner ∈ (nullable inner).parts := List.mem_singleton_self inner
      rw [hmark] at h
      exact ih inner hinner (ht.part hinner) hu hs hs' h
    induction u using partsInduction generalizing n with
    | step u ihu =>
      by_cases hun : ∃ inner, u = nullable inner
      · obtain ⟨inner, rfl⟩ := hun
        have hinner : inner ∈ (nullable inner).parts := List.mem_singleton_self inner
        rw [hmark] at h
        exact ihu inner hinner (hu.part hinner) h
      have hparts : ∀ p ∈ t.parts, p.ReadsBack := by
        intro p hp v hv r r' hr hr' heq
        exact ih p hp (m := 0) (n := 0) (ht.part hp) hv hr hr' heq
      obtain ⟨hb, hne⟩ := marks_cons hs m
      obtain ⟨hb', hne'⟩ := marks_cons hs' n
      obtain ⟨rfl, hmarks⟩ := base_inj ht hu (fun inner heq => htn ⟨inner, heq⟩)
        (fun inner heq => hun ⟨inner, heq⟩) hparts hb hb' hne hne' h
      obtain ⟨rfl, hss⟩ := marks_inj hs hs' hmarks
      exact ⟨rfl, hss⟩

/-- Every plain type can be read back. -/
theorem Plain.readsBack {t : TypeRef} (ht : t.Plain) : t.ReadsBack := by
  intro u hu s s' hs hs' h
  exact nullables_inj (m := 0) (n := 0) ht hu hs hs' h

/-- Plain types with the same spelling are equal. -/
theorem letters_injective {t u : TypeRef} (ht : t.Plain) (hu : u.Plain)
    (h : t.letters = u.letters) : t = u := by
  refine (ht.readsBack u hu [] [] rfl rfl ?_).1
  rw [h]

end TypeRef

end IdlModel
