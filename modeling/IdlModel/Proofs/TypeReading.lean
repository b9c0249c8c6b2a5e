import IdlModel.Proofs.Spelling
import IdlModel.Syntax.TypeReader
import Mathlib.Data.List.DropRight

/-!
# Reading types

What reading a type gives, and that it is read again from its spelling.

*Openers.*  `unsigned` and `unrestricted` take up the word behind them, whatever it is.  So a
name that ends in one of them cannot stand before the `or` of a union: the `or` would belong to
the name.

*Legible types.*  A type is legible if it has the shapes that reading gives: names are words in
the right order, unions and arguments are not empty, the generic forms of `sequence` and `record`
have another number of arguments than these, and a type has one question mark at most.  A member
of a union that is not the last one does not end in an opener.  Reading gives legible types:
`legible_of_typeAt`.

*Spellings.*  The spelling of a legible type is read up to its end, in front of everything that
can follow it in a longer spelling: `Legible.reads`.  What is read may differ from the type in
the name of a builtin type that has two, and stands for the same reference.
-/

namespace IdlModel

namespace Syntax

/-! ## Words -/

/-- A word. -/
def IsWord (w : List Char) : Prop :=
  ∃ c cs, w = c :: cs ∧ isWordStart c = true ∧ ∀ d ∈ cs, isWordRest d = true

/-- No word goes on with these letters. -/
def EndsWord (cs : List Char) : Prop := ∀ c ∈ cs.head?, isWordRest c = false

/-- Behind blanks there is a word. -/
def WordFollows (cs : List Char) : Prop := ((someSpaces? cs).bind word).isSome = true

theorem isSpace_of_isWordStart {c : Char} (h : isWordStart c = true) : isSpace c = false := by
  by_contra hspace
  simp only [Bool.not_eq_false, isSpace, Bool.or_eq_true, beq_iff_eq] at hspace
  rcases hspace with rfl | rfl <;> cases h

theorem skipSpaces_word {w rest : List Char} (hw : IsWord w) :
    skipSpaces (w ++ rest) = w ++ rest := by
  obtain ⟨c, cs, rfl, hc, -⟩ := hw
  rw [skipSpaces, List.cons_append, List.dropWhile_cons_of_neg]
  rw [isSpace_of_isWordStart hc]
  exact Bool.false_ne_true

theorem length_someSpaces? {cs rest : List Char} (h : someSpaces? cs = some rest) :
    rest.length < cs.length := by
  cases cs with
  | nil => cases h
  | cons c cs =>
      rw [someSpaces?] at h
      split at h
      next =>
        cases h
        exact Nat.lt_succ_of_le (List.dropWhile_suffix isSpace).length_le
      next => cases h

theorem word_eq_some {cs w rest : List Char} (h : word cs = some (w, rest)) :
    IsWord w ∧ cs = w ++ rest := by
  cases cs with
  | nil => cases h
  | cons c cs =>
      rw [word] at h
      split at h
      next hc =>
        cases h
        refine ⟨⟨c, _, rfl, hc, List.all_eq_true.mp List.all_takeWhile⟩, ?_⟩
        rw [List.cons_append, List.takeWhile_append_dropWhile]
      next => cases h

/-- A word is read up to its end. -/
theorem word_append {w rest : List Char} (hw : IsWord w) (hrest : EndsWord rest) :
    word (w ++ rest) = some (w, rest) := by
  obtain ⟨c, cs, rfl, hc, hcs⟩ := hw
  have hstop : rest.takeWhile isWordRest = [] ∧ rest.dropWhile isWordRest = rest := by
    cases rest with
    | nil => exact ⟨rfl, rfl⟩
    | cons d rest =>
        have hd : isWordRest d = false := hrest d rfl
        simp [hd]
  rw [List.cons_append, word, if_pos hc, List.takeWhile_append_of_pos hcs,
    List.dropWhile_append_of_pos hcs, hstop.1, hstop.2, List.append_nil]

/-- A word behind a blank. -/
theorem someSpaces_word {w rest : List Char} (hw : IsWord w) (hrest : EndsWord rest) :
    (someSpaces? (' ' :: (w ++ rest))).bind word = some (w, rest) := by
  have hspaces : someSpaces? (' ' :: (w ++ rest)) = some (skipSpaces (w ++ rest)) := rfl
  rw [hspaces, skipSpaces_word hw]
  exact word_append hw hrest

/-! ## Names -/

/-- A word that takes up the next one. -/
def IsOpener (w : List Char) : Prop := w = "unsigned".toList ∨ w = "unrestricted".toList

/-- The words that can stand behind a word.  Only an open name may end in an opener. -/
inductive Continues (isOpen : Bool) : List Char → List (List Char) → Prop
  | done {last : List Char} (h : isOpen = false → ¬ IsOpener last) : Continues isOpen last []
  | long : Continues isOpen "long".toList ["long".toList]
  | more {last next : List Char} {rest : List (List Char)} (hopener : IsOpener last)
      (hnext : IsWord next) (hrest : Continues isOpen next rest) :
      Continues isOpen last (next :: rest)

/-- Words, with a blank before each. -/
def blankWords (ws : List (List Char)) : List Char := ws.flatMap (' ' :: ·)

/-- A name as it can be read. -/
def IsName (isOpen : Bool) (name : String) : Prop :=
  ∃ first more, IsWord first ∧ Continues isOpen first more ∧
    name.toList = first ++ blankWords more

/-- No name goes on with these letters.  What looks like another word is the `or` of a union, and
the name is not open then. -/
def EndsName (isOpen : Bool) (cs : List Char) : Prop :=
  EndsWord cs ∧ ∀ found ∈ (someSpaces? cs).bind word, isOpen = false ∧ found.1 = "or".toList

theorem isWord_long : IsWord "long".toList :=
  ⟨'l', ['o', 'n', 'g'], rfl, rfl, List.all_eq_true.mp rfl⟩

theorem not_isOpener_long : ¬ IsOpener "long".toList := by
  rintro (h | h) <;> cases h

/-- A single word is a name. -/
theorem IsWord.isName {isOpen : Bool} {name : String} (h : IsWord name.toList)
    (hclosed : isOpen = false → ¬ IsOpener name.toList) : IsName isOpen name :=
  ⟨name.toList, [], h, .done hclosed, (List.append_nil _).symm⟩

theorem isName_void {isOpen : Bool} : IsName isOpen "void" := by
  refine IsWord.isName ⟨'v', ['o', 'i', 'd'], rfl, rfl, List.all_eq_true.mp rfl⟩ fun _ => ?_
  rintro (h | h) <;> cases h

theorem isName_sequence : IsName true "sequence" :=
  IsWord.isName ⟨'s', ['e', 'q', 'u', 'e', 'n', 'c', 'e'], rfl, rfl, List.all_eq_true.mp rfl⟩ nofun

theorem isName_record : IsName true "record" :=
  IsWord.isName ⟨'r', ['e', 'c', 'o', 'r', 'd'], rfl, rfl, List.all_eq_true.mp rfl⟩ nofun

/-- The words of a name with one blank between two. -/
theorem toList_words (w : List Char) (ws : List (List Char)) :
    (" ".intercalate ((w :: ws).map String.ofList)).toList = w ++ blankWords ws := by
  have hid : ∀ l : List (List Char), (l.map String.ofList).map String.toList = l := by
    simp [Function.comp_def]
  have hblank : " ".toList = [' '] := rfl
  rw [String.toList_intercalate, hid, hblank]
  induction ws generalizing w with
  | nil => simp [blankWords]
  | cons w' ws ih =>
    rw [List.intercalate_cons_cons, ih w', List.append_assoc]
    rfl

/-- What reading gives behind a word.  If another word could have followed, the name is not
open. -/
theorem continues_of_moreWords {fuel : Nat} {last cs rest : List Char} {more : List (List Char)}
    (hfuel : cs.length ≤ fuel) (h : moreWords fuel last cs = (more, rest)) :
    Continues true last more ∧ (WordFollows rest → Continues false last more) := by
  induction fuel generalizing last cs more with
  | zero =>
    obtain rfl : cs = [] := List.eq_nil_of_length_eq_zero (Nat.le_zero.mp hfuel)
    cases h
    exact ⟨.done nofun, nofun⟩
  | succ fuel ih =>
    rw [moreWords] at h
    dsimp only at h
    split at h
    next hlast =>
      cases hnext : (someSpaces? cs).bind word with
      | none =>
          rw [hnext] at h
          cases h
          refine ⟨.done nofun, fun hfollows => ?_⟩
          rw [WordFollows, hnext] at hfollows
          cases hfollows
      | some found =>
          obtain ⟨next, rest'⟩ := found
          rw [hnext] at h
          dsimp only at h
          by_cases hlong : last = "long".toList
          · subst hlong
            rw [if_pos rfl] at h
            split at h
            next heq =>
              cases h
              subst heq
              exact ⟨.long, fun _ => .long⟩
            next =>
              cases h
              exact ⟨.done nofun, fun _ => .done fun _ => not_isOpener_long⟩
          · rw [if_neg hlong] at h
            have hopener : IsOpener last := hlast.resolve_left hlong
            obtain ⟨behind, hspaces, hword⟩ := Option.bind_eq_some_iff.mp hnext
            obtain ⟨hnext, rfl⟩ := word_eq_some hword
            have hshort : rest'.length ≤ fuel := by
              have hless := length_someSpaces? hspaces
              rw [List.length_append] at hless
              omega
            cases hmore : moreWords fuel next rest' with
            | mk more' rest'' =>
                rw [hmore] at h
                cases h
                obtain ⟨hopen, hclosed⟩ := ih hshort hmore
                exact ⟨.more hopener hnext hopen, fun hf => .more hopener hnext (hclosed hf)⟩
    next hlast =>
      cases h
      have hclosed : ¬ IsOpener last := fun hopener => hlast (.inr hopener)
      exact ⟨.done nofun, fun _ => .done fun _ => hclosed⟩

theorem isName_of_typeName {cs rest : List Char} {name : String}
    (h : typeName cs = some (name, rest)) :
    IsName true name ∧ (WordFollows rest → IsName false name) := by
  obtain ⟨⟨first, behind⟩, hfirst, h⟩ := Option.bind_eq_some_iff.mp h
  cases hmore : moreWords behind.length first behind with
  | mk more rest' =>
      dsimp only at h
      rw [hmore] at h
      cases h
      obtain ⟨hword, -⟩ := word_eq_some hfirst
      obtain ⟨hopen, hclosed⟩ := continues_of_moreWords (Nat.le_refl _) hmore
      have htext := toList_words first more
      exact ⟨⟨first, more, hword, hopen, htext⟩,
        fun hf => ⟨first, more, hword, hclosed hf, htext⟩⟩

/-- Words are read up to their end. -/
theorem moreWords_append {isOpen : Bool} {last : List Char} {more : List (List Char)}
    (h : Continues isOpen last more) {s : List Char} (hs : EndsName isOpen s) {fuel : Nat}
    (hfuel : more.length ≤ fuel) : moreWords fuel last (blankWords more ++ s) = (more, s) := by
  have hends : ∀ more : List (List Char), EndsWord (blankWords more ++ s) := by
    intro more
    cases more with
    | nil => exact hs.1
    | cons w ws =>
        rintro c ⟨⟩
        rfl
  have hnotLong : ∀ {w : List Char}, IsOpener w → w ≠ "long".toList := by
    rintro w hw rfl
    exact not_isOpener_long hw
  induction h generalizing fuel with
  | @done last hlast =>
    cases fuel with
    | zero => rfl
    | succ fuel =>
        change moreWords (fuel + 1) last s = ([], s)
        rw [moreWords]
        dsimp only
        split
        next hcan =>
          cases hfound : (someSpaces? s).bind word with
          | none => rfl
          | some found =>
              obtain ⟨hclosed, hor⟩ := hs.2 found hfound
              obtain rfl : last = "long".toList := hcan.resolve_right (hlast hclosed)
              obtain ⟨next, rest⟩ := found
              obtain rfl : next = "or".toList := hor
              rfl
        next => rfl
  | long =>
    cases fuel with
    | zero => cases hfuel
    | succ fuel =>
        have hnext := someSpaces_word isWord_long (hends [])
        change moreWords (fuel + 1) _ (' ' :: ("long".toList ++ s)) = _
        rw [moreWords]
        dsimp only
        rw [if_pos (.inl rfl),
          show ("long".toList ++ s) = "long".toList ++ (blankWords [] ++ s) from rfl, hnext]
        rfl
  | @more last next rest hopener hnext _ ih =>
    cases fuel with
    | zero => cases hfuel
    | succ fuel =>
        have hword := someSpaces_word hnext (hends rest)
        have hrest := ih (Nat.le_of_succ_le_succ hfuel)
        have htext : blankWords (next :: rest) ++ s = ' ' :: (next ++ (blankWords rest ++ s)) := by
          simp [blankWords]
        rw [htext, moreWords]
        dsimp only
        rw [if_pos (.inr hopener), hword]
        dsimp only
        rw [if_neg (hnotLong hopener), hrest]

theorem length_le_blankWords (ws : List (List Char)) : ws.length ≤ (blankWords ws).length := by
  induction ws with
  | nil => exact Nat.le_refl 0
  | cons w ws ih =>
    have htext : blankWords (w :: ws) = ' ' :: (w ++ blankWords ws) := rfl
    rw [htext]
    simp only [List.length_cons, List.length_append]
    omega

/-- A name is read up to its end. -/
theorem typeName_append {isOpen : Bool} {name : String} (h : IsName isOpen name) {s : List Char}
    (hs : EndsName isOpen s) : typeName (name.toList ++ s) = some (name, s) := by
  obtain ⟨first, more, hfirst, hmore, htext⟩ := h
  have hends : EndsWord (blankWords more ++ s) := by
    cases more with
    | nil => exact hs.1
    | cons w ws =>
        rintro c ⟨⟩
        rfl
  have hfuel : more.length ≤ (blankWords more ++ s).length := by
    have := length_le_blankWords more
    rw [List.length_append]
    omega
  have hname : " ".intercalate ((first :: more).map String.ofList) = name :=
    String.toList_inj.mp ((toList_words first more).trans htext.symm)
  rw [htext, List.append_assoc, typeName]
  simp only [word_append hfirst hends, Option.bind_eq_bind, Option.bind_some,
    moreWords_append hmore hs hfuel, hname, Option.pure_def]

/-! ## Legible types -/

/-- A type as it can be read.  Only an open type may end in an opener. -/
inductive Legible : Bool → TypeExpr → Prop
  | named {isOpen : Bool} {name : String} (h : IsName isOpen name) : Legible isOpen (.named name)
  | sequence {isOpen : Bool} {element : TypeExpr} (h : Legible true element) :
      Legible isOpen (.sequence element)
  | record {isOpen : Bool} {key value : TypeExpr} (hkey : Legible true key)
      (hvalue : Legible true value) : Legible isOpen (.record key value)
  | generic {isOpen : Bool} {name : String} {args : List TypeExpr} (hname : IsName true name)
      (hne : args ≠ []) (hargs : ∀ a ∈ args, Legible true a)
      (happlied : TypeExpr.applied name args = .generic name args) :
      Legible isOpen (.generic name args)
  | union {isOpen : Bool} {members : List TypeExpr} {last : TypeExpr}
      (hmembers : ∀ m ∈ members, Legible false m) (hlast : Legible true last) :
      Legible isOpen (.union (members ++ [last]))
  | nullable {isOpen : Bool} {inner : TypeExpr} (h : Legible true inner)
      (hinner : ∀ t, inner ≠ .nullable t) : Legible isOpen (.nullable inner)

/-- A reader gives legible types, and no open ones before another word. -/
def GivesLegible (element : Reader TypeExpr) : Prop :=
  ∀ cs t rest, element cs = some (t, rest) → Legible true t ∧ (WordFollows rest → Legible false t)

/-- The elements of a list.  All but the last stand before a separator. -/
theorem exists_of_moreElements {α : Type} {element : Reader α}
    {separator : List Char → Option (List Char)} {fuel : Nat} {x : α} {xs : List α}
    {before cs rest : List Char} (hfirst : element before = some (x, cs))
    (h : moreElements element separator fuel cs = (xs, rest)) :
    ∃ init last, x :: xs = init ++ [last] ∧
      (∀ y ∈ init, ∃ cs r, element cs = some (y, r) ∧ (separator r).isSome = true) ∧
      ∃ cs r, element cs = some (last, r) := by
  induction fuel generalizing x xs before cs with
  | zero =>
    cases h
    exact ⟨[], x, rfl, nofun, before, _, hfirst⟩
  | succ fuel ih =>
    rw [moreElements] at h
    cases hnext : (separator cs).bind element with
    | none =>
        rw [hnext] at h
        cases h
        exact ⟨[], x, rfl, nofun, before, _, hfirst⟩
    | some found =>
        obtain ⟨y, rest'⟩ := found
        rw [hnext] at h
        dsimp only at h
        cases hmore : moreElements element separator fuel rest' with
        | mk ys rest'' =>
            rw [hmore] at h
            cases h
            obtain ⟨behind, hsep, hy⟩ := Option.bind_eq_some_iff.mp hnext
            obtain ⟨init, last, hall, hinit, hlast⟩ := ih hy hmore
            refine ⟨x :: init, last, by rw [hall]; rfl, ?_, hlast⟩
            refine List.forall_mem_cons.mpr ⟨⟨before, cs, hfirst, ?_⟩, hinit⟩
            rw [hsep]
            rfl

theorem exists_of_elements {α : Type} {element : Reader α}
    {separator : List Char → Option (List Char)} {xs : List α} {cs rest : List Char}
    (h : elements element separator cs = some (xs, rest)) :
    ∃ init last, xs = init ++ [last] ∧
      (∀ y ∈ init, ∃ cs r, element cs = some (y, r) ∧ (separator r).isSome = true) ∧
      ∃ cs r, element cs = some (last, r) := by
  obtain ⟨⟨x, behind⟩, hfirst, h⟩ := Option.bind_eq_some_iff.mp h
  cases hmore : moreElements element separator behind.length behind with
  | mk ys rest' =>
      dsimp only at h
      rw [hmore] at h
      cases h
      exact exists_of_moreElements hfirst hmore

theorem wordFollows_of_orWord? {cs : List Char} (h : (orWord? cs).isSome = true) :
    WordFollows cs := by
  rw [orWord?] at h
  split at h
  next rest hspaces =>
    rw [WordFollows, hspaces]
    rfl
  next => cases h

/-- A name with arguments is a sequence, a record or generic. -/
theorem applied_cases (name : String) (args : List TypeExpr) :
    (∃ element, args = [element] ∧ name = "sequence" ∧
        TypeExpr.applied name args = .sequence element) ∨
      (∃ key value, args = [key, value] ∧ name = "record" ∧
        TypeExpr.applied name args = .record key value) ∨
      TypeExpr.applied name args = .generic name args := by
  unfold TypeExpr.applied
  split
  next element =>
    split
    next hname => exact .inl ⟨element, rfl, hname, rfl⟩
    next => exact .inr (.inr rfl)
  next key value =>
    split
    next hname => exact .inr (.inl ⟨key, value, rfl, hname, rfl⟩)
    next => exact .inr (.inr rfl)
  next => exact .inr (.inr rfl)

theorem legible_applied {isOpen : Bool} {name : String} {args : List TypeExpr}
    (hname : IsName true name) (hne : args ≠ []) (hargs : ∀ a ∈ args, Legible true a) :
    Legible isOpen (TypeExpr.applied name args) := by
  rcases applied_cases name args with ⟨e, rfl, -, happ⟩ | ⟨k, v, rfl, -, happ⟩ | happ
  · rw [happ]
    exact .sequence (hargs e List.mem_cons_self)
  · rw [happ]
    exact .record (hargs k List.mem_cons_self) (hargs v (by simp))
  · rw [happ]
    exact .generic hname hne hargs happ

/-- What is read before a question mark is legible, and has no question mark of its own. -/
theorem legible_of_base {element : Reader TypeExpr} (helement : GivesLegible element)
    {cs rest : List Char} {t : TypeExpr} (h : base element cs = some (t, rest)) :
    (Legible true t ∧ (WordFollows rest → Legible false t)) ∧ ∀ inner, t ≠ .nullable inner := by
  unfold base at h
  split at h
  next cs =>
    obtain ⟨⟨ts, behind⟩, helements, h⟩ := Option.bind_eq_some_iff.mp h
    obtain ⟨after, -, h⟩ := Option.bind_eq_some_iff.mp h
    cases h
    obtain ⟨init, last, rfl, hinit, cs, r, hlast⟩ := exists_of_elements helements
    have hmembers : ∀ m ∈ init, Legible false m := by
      intro m hm
      obtain ⟨cs, r, hread, hsep⟩ := hinit m hm
      exact (helement cs m r hread).2 (wordFollows_of_orWord? hsep)
    have hunion : ∀ isOpen, Legible isOpen (.union (init ++ [last])) := fun _ =>
      .union hmembers (helement cs last r hlast).1
    exact ⟨⟨hunion true, fun _ => hunion false⟩, nofun⟩
  next =>
    obtain ⟨⟨name, behind⟩, hname, h⟩ := Option.bind_eq_some_iff.mp h
    obtain ⟨hopen, hclosed⟩ := isName_of_typeName hname
    dsimp only at h
    split at h
    next args rest' hargs =>
      cases h
      obtain ⟨inner, -, hargs⟩ := Option.bind_eq_some_iff.mp hargs
      obtain ⟨⟨ts, behind⟩, helements, hargs⟩ := Option.bind_eq_some_iff.mp hargs
      obtain ⟨after, -, hargs⟩ := Option.bind_eq_some_iff.mp hargs
      cases hargs
      obtain ⟨init, last, rfl, hinit, cs, r, hlast⟩ := exists_of_elements helements
      have hall : ∀ a ∈ init ++ [last], Legible true a := by
        intro a ha
        rcases List.mem_append.mp ha with ha | ha
        · obtain ⟨cs, r, hread, -⟩ := hinit a ha
          exact (helement cs a r hread).1
        · obtain rfl := List.mem_singleton.mp ha
          exact (helement cs a r hlast).1
      have happlied : ∀ isOpen, Legible isOpen (.applied name (init ++ [last])) := fun _ =>
        legible_applied hopen (by simp) hall
      refine ⟨⟨happlied true, fun _ => happlied false⟩, fun inner heq => ?_⟩
      rcases applied_cases name (init ++ [last]) with ⟨_, _, _, happ⟩ | ⟨_, _, _, _, happ⟩ | happ
      all_goals
        rw [happ] at heq
        cases heq
    next =>
      cases h
      exact ⟨⟨.named hopen, fun hf => .named (hclosed hf)⟩, nofun⟩

/-- What is read is legible. -/
theorem legible_of_typeAt (depth : Nat) : GivesLegible (typeAt depth) := by
  induction depth with
  | zero => intro cs t rest h; cases h
  | succ depth ih =>
    intro cs t rest h
    obtain ⟨⟨ty, behind⟩, hbase, h⟩ := Option.bind_eq_some_iff.mp h
    obtain ⟨hlegible, hinner⟩ := legible_of_base ih hbase
    dsimp only at h
    split at h
    next =>
      cases h
      exact ⟨.nullable hlegible.1 hinner, fun _ => .nullable hlegible.1 hinner⟩
    next =>
      cases h
      exact hlegible

/-! ## Spellings -/

open TypeRef (ofExpr ofExprs ofName letters listed listedRest listed_cons)

/-- What can follow a type in a spelling. -/
inductive Stops : Bool → List Char → Prop
  | nil {isOpen : Bool} : Stops isOpen []
  | mark {isOpen : Bool} {c : Char} (hc : c ∈ ['?', '>', ',', ')']) (rest : List Char) :
      Stops isOpen (c :: rest)
  | orWord (rest : List Char) : Stops false (' ' :: 'o' :: 'r' :: ' ' :: rest)

/-- A reader reads a type from its spelling, in front of the letters `s`. -/
def ReadsBefore (element : Reader TypeExpr) (s : List Char) (t : TypeExpr) : Prop :=
  ∃ t', element ((ofExpr t).letters ++ s) = some (t', s) ∧ ofExpr t' = ofExpr t

theorem endsName_of_mark {c : Char} (hc : c ∈ ['?', '>', ',', ')', '<']) {isOpen : Bool}
    (rest : List Char) : EndsName isOpen (c :: rest) := by
  obtain ⟨hrest, hspace⟩ : isWordRest c = false ∧ isSpace c = false := by
    simp only [List.mem_cons, List.not_mem_nil, or_false] at hc
    rcases hc with rfl | rfl | rfl | rfl | rfl <;> exact ⟨rfl, rfl⟩
  refine ⟨?_, fun found hfound => ?_⟩
  · rintro _ ⟨⟩
    exact hrest
  · rw [someSpaces?, hspace] at hfound
    cases hfound

theorem Stops.endsName {isOpen : Bool} {s : List Char} (h : Stops isOpen s) :
    EndsName isOpen s := by
  cases h with
  | nil => exact ⟨nofun, nofun⟩
  | mark hc rest => exact endsName_of_mark (List.mem_append_left ['<'] hc) rest
  | orWord rest =>
      refine ⟨?_, ?_⟩
      · rintro _ ⟨⟩
        rfl
      · rintro found ⟨⟩
        exact ⟨rfl, rfl⟩

/-- A mark that does not stand there is not found. -/
theorem Stops.mark?_eq_none {isOpen : Bool} {s : List Char} (h : Stops isOpen s) {d : Char}
    (hd : d = '?' ∨ d = '<') (hne : s.head? ≠ some d) : mark? d s = none := by
  cases h with
  | nil => rfl
  | @mark _ c hc rest =>
      have hfacts : ∀ c ∈ ['?', '>', ',', ')'], isSpace c = false := by simp [isSpace]
      have hspace := hfacts c hc
      have hcd : c ≠ d := fun heq => hne (congrArg some heq)
      simp [mark?, skipSpaces, hspace, hcd]
  | orWord rest => rcases hd with rfl | rfl <;> rfl

/-- Nothing that follows a type opens its arguments. -/
theorem Stops.head?_ne {isOpen : Bool} {s : List Char} (h : Stops isOpen s) :
    s.head? ≠ some '<' := by
  cases h with
  | nil => exact nofun
  | mark hc rest =>
      rintro ⟨⟩
      revert hc
      decide
  | orWord rest => exact nofun

theorem ofExprs_eq_map (ts : List TypeExpr) : ofExprs ts = ts.map ofExpr := by
  induction ts with
  | nil => rfl
  | cons t ts ih => rw [ofExprs, ih, List.map_cons]

/-- The reference of a name with arguments, given the references of these. -/
def appliedRef (name : String) : List TypeRef → TypeRef
  | [element] => if name = "sequence" then .sequence element else .parametrized name [element]
  | [key, value] => if name = "record" then .record key value else .parametrized name [key, value]
  | args => .parametrized name args

theorem ofExpr_applied (name : String) (args : List TypeExpr) :
    ofExpr (TypeExpr.applied name args) = appliedRef name (args.map ofExpr) := by
  have hgeneric : ofExpr (.generic name args) = .parametrized name (args.map ofExpr) := by
    rw [ofExpr, ofExprs_eq_map]
  match args with
  | [] => exact hgeneric
  | [element] =>
      by_cases hname : name = "sequence" <;>
        simp [TypeExpr.applied, appliedRef, hname, ofExpr, ofExprs]
  | [key, value] =>
      by_cases hname : name = "record" <;>
        simp [TypeExpr.applied, appliedRef, hname, ofExpr, ofExprs]
  | _ :: _ :: _ :: _ => exact hgeneric

/-! ### Lists -/

theorem length_letters_lt_listed (sep : List Char) (close : Char) {ts : List TypeRef}
    {t : TypeRef} (ht : t ∈ ts) : t.letters.length < (listed sep [close] ts).length := by
  induction ts with
  | nil => cases ht
  | cons u us ih =>
    rw [listed_cons, List.length_append]
    cases us with
    | nil =>
        obtain rfl := List.mem_singleton.mp ht
        exact Nat.lt_succ_self _
    | cons v vs =>
        rw [listedRest, List.length_append]
        rcases List.mem_cons.mp ht with rfl | ht
        · have hrest : 0 < (listed sep [close] (v :: vs)).length := by simp [listed]
          omega
        · have := ih ht
          omega

theorem length_le_listed {sep : List Char} (hne : sep ≠ []) (close : Char) (ts : List TypeRef) :
    ts.length ≤ (listed sep [close] ts).length := by
  have hsep := List.length_pos_iff.mpr hne
  induction ts with
  | nil => exact Nat.zero_le _
  | cons t ts ih =>
    rw [listed_cons]
    cases ts with
    | nil => simp [listedRest]
    | cons u us =>
        rw [listedRest]
        simp only [List.length_cons, List.length_append] at ih ⊢
        omega

section Lists

variable {element : Reader TypeExpr} {separator : List Char → Option (List Char)}
  {sep : List Char} {close : Char} {s : List Char} {init : List TypeExpr} {last : TypeExpr}

theorem moreElements_of_stop {α : Type} {element : Reader α} {cs : List Char}
    (h : (separator cs).bind element = none) (fuel : Nat) :
    moreElements element separator fuel cs = ([], cs) := by
  cases fuel with
  | zero => rfl
  | succ fuel => rw [moreElements, h]

variable (hsep : ∀ r, (separator (sep ++ r)).bind element = element r)
  (hclose : (separator (close :: s)).bind element = none)
  (hinit : ∀ t ∈ init, ∀ r, ReadsBefore element (sep ++ r) t)
  (hlast : ReadsBefore element (close :: s) last)

include hsep hclose hinit hlast

/-- Several types behind a separator are read up to the closing bracket. -/
theorem moreElements_listed {fuel : Nat} (hfuel : init.length < fuel) :
    ∃ ts, moreElements element separator fuel
        (sep ++ (listed sep [close] ((init ++ [last]).map ofExpr) ++ s)) = (ts, close :: s) ∧
      ts.map ofExpr = (init ++ [last]).map ofExpr := by
  induction init generalizing fuel with
  | nil =>
    cases fuel with
    | zero => cases hfuel
    | succ fuel =>
        obtain ⟨last', hread, href⟩ := hlast
        have htext : listed sep [close] (([] ++ [last]).map ofExpr) ++ s =
            (ofExpr last).letters ++ close :: s := by simp [listed]
        refine ⟨[last'], ?_, by simp [href]⟩
        rw [moreElements, hsep, htext, hread]
        dsimp only
        rw [moreElements_of_stop hclose]
  | cons t init ih =>
    cases fuel with
    | zero => cases hfuel
    | succ fuel =>
        obtain ⟨hfirst, hrest⟩ := List.forall_mem_cons.mp hinit
        obtain ⟨ts, hmore, hrefs⟩ := ih hrest (Nat.lt_of_succ_lt_succ hfuel)
        obtain ⟨t', hread, href⟩ := hfirst (listed sep [close] ((init ++ [last]).map ofExpr) ++ s)
        have htext : listed sep [close] ((t :: init ++ [last]).map ofExpr) ++ s =
            (ofExpr t).letters ++
              (sep ++ (listed sep [close] ((init ++ [last]).map ofExpr) ++ s)) := by
          rw [List.cons_append, List.map_cons, listed_cons]
          cases init <;> simp [listedRest]
        refine ⟨t' :: ts, ?_, by simp [href, hrefs]⟩
        rw [moreElements, hsep, htext, hread]
        dsimp only
        rw [hmore]

/-- One or more types are read up to the closing bracket. -/
theorem elements_listed (hne : sep ≠ []) :
    ∃ ts, elements element separator
        (listed sep [close] ((init ++ [last]).map ofExpr) ++ s) = some (ts, close :: s) ∧
      ts.map ofExpr = (init ++ [last]).map ofExpr := by
  cases init with
  | nil =>
    obtain ⟨last', hread, href⟩ := hlast
    have htext : listed sep [close] (([] ++ [last]).map ofExpr) ++ s =
        (ofExpr last).letters ++ close :: s := by simp [listed]
    refine ⟨[last'], ?_, by simp [href]⟩
    rw [elements, htext, hread]
    simp only [Option.bind_eq_bind, Option.bind_some, moreElements_of_stop hclose, Option.pure_def]
  | cons t init =>
    obtain ⟨hfirst, hrest⟩ := List.forall_mem_cons.mp hinit
    obtain ⟨t', hread, href⟩ := hfirst (listed sep [close] ((init ++ [last]).map ofExpr) ++ s)
    have htext : listed sep [close] ((t :: init ++ [last]).map ofExpr) ++ s = (ofExpr t).letters ++
        (sep ++ (listed sep [close] ((init ++ [last]).map ofExpr) ++ s)) := by
      rw [List.cons_append, List.map_cons, listed_cons]
      cases init <;> simp [listedRest]
    have hfuel : init.length <
        (sep ++ (listed sep [close] ((init ++ [last]).map ofExpr) ++ s)).length := by
      have := length_le_listed hne close ((init ++ [last]).map ofExpr)
      simp only [List.length_map, List.length_append, List.length_cons, List.length_nil] at this ⊢
      omega
    obtain ⟨ts, hmore, hrefs⟩ := moreElements_listed hsep hclose hrest hlast hfuel
    refine ⟨t' :: ts, ?_, by simp [href, hrefs]⟩
    rw [elements, htext, hread]
    simp only [Option.bind_eq_bind, Option.bind_some, hmore, Option.pure_def]

end Lists

/-! ### Types -/

theorem isName_start {isOpen : Bool} {name : String} (h : IsName isOpen name) :
    ∃ c cs, name.toList = c :: cs ∧ isWordStart c = true := by
  obtain ⟨_, more, ⟨c, cs, rfl, hc, -⟩, -, htext⟩ := h
  exact ⟨c, cs ++ blankWords more, htext, hc⟩

/-- What starts with a name is no union. -/
theorem base_name {isOpen : Bool} {name : String} (h : IsName isOpen name)
    (element : Reader TypeExpr) (s : List Char) :
    base element (name.toList ++ s) = single element (name.toList ++ s) := by
  obtain ⟨c, cs, htext, hc⟩ := isName_start h
  rw [htext, List.cons_append]
  unfold base
  split
  next heq =>
    cases heq
    cases hc
  next => rfl

/-- The reference of a name is spelled as a name. -/
theorem exists_letters_ofName {isOpen : Bool} {name : String} (h : IsName isOpen name) :
    ∃ name', IsName isOpen name' ∧ (ofName name).letters = name'.toList ∧
      ofName name' = ofName name := by
  by_cases hvoid : name = "void" ∨ name = "undefined"
  · have href : ofName name = .void := by rw [ofName, if_pos hvoid]
    rw [href]
    exact ⟨"void", isName_void, rfl, rfl⟩
  · refine ⟨name, h, ?_, rfl⟩
    rw [ofName, if_neg hvoid]
    split
    next hany =>
      subst hany
      rfl
    next =>
      split
      next p hp =>
        have hname := List.find?_some hp
        exact congrArg String.toList (beq_iff_eq.mp hname)
      next => rfl

/-- A name is read up to its end. -/
theorem base_named {isOpen : Bool} {name : String} (h : IsName isOpen name) {s : List Char}
    (hs : Stops isOpen s) (element : Reader TypeExpr) :
    ReadsBefore (base element) s (.named name) := by
  obtain ⟨name', hname', hletters, href⟩ := exists_letters_ofName h
  have hargs : arguments element s = none := by
    rw [arguments, hs.mark?_eq_none (.inr rfl) hs.head?_ne]
    rfl
  refine ⟨.named name', ?_, href⟩
  rw [ofExpr, hletters, base_name hname', single]
  simp only [Option.bind_eq_bind, typeName_append hname' hs.endsName, Option.bind_some, hargs,
    Option.pure_def]

/-- A name with arguments is read up to its end. -/
theorem base_applied {name : String} (hname : IsName true name) (element : Reader TypeExpr)
    {args : List TypeExpr} (hne : args ≠ []) {s : List Char}
    (hskip : ∀ r, element (' ' :: r) = element r)
    (hargs : ∀ a ∈ args, ∀ s, Stops true s → s.head? ≠ some '?' → ReadsBefore element s a) :
    ∃ t, base element (name.toList ++ '<' :: (listed [',', ' '] ['>'] (args.map ofExpr) ++ s)) =
      some (t, s) ∧ ofExpr t = ofExpr (TypeExpr.applied name args) := by
  obtain ⟨init, last, rfl⟩ : ∃ init last, args = init ++ [last] :=
    ⟨_, _, (List.dropLast_append_getLast hne).symm⟩
  have hsep : ∀ r, (mark? ',' ([',', ' '] ++ r)).bind element = element r := hskip
  have hclose : (mark? ',' ('>' :: s)).bind element = none := rfl
  obtain ⟨ts, helements, hrefs⟩ := elements_listed hsep hclose
    (fun t ht r => hargs t (List.mem_append_left _ ht) _ (.mark (by decide) _) (by simp))
    (hargs last (by simp) _ (.mark (by decide) s) (by simp)) (by simp)
  refine ⟨.applied name ts, ?_, by rw [ofExpr_applied, ofExpr_applied, hrefs]⟩
  rw [base_name hname, single]
  have hopen : mark? '<' ('<' :: (listed [',', ' '] ['>'] ((init ++ [last]).map ofExpr) ++ s)) =
      some (listed [',', ' '] ['>'] ((init ++ [last]).map ofExpr) ++ s) := rfl
  have hend : mark? '>' ('>' :: s) = some s := rfl
  have hbracket : ∀ r, EndsName true ('<' :: r) := endsName_of_mark (by decide)
  simp only [Option.bind_eq_bind, typeName_append hname (hbracket _), Option.bind_some, arguments,
    hopen, helements, hend, Option.pure_def]

/-- A union is read up to its end. -/
theorem base_union {element : Reader TypeExpr} {members : List TypeExpr} {last : TypeExpr}
    {s : List Char} (hskip : ∀ r, element (skipSpaces r) = element r)
    (hmembers : ∀ m ∈ members, ∀ r, ReadsBefore element (' ' :: 'o' :: 'r' :: ' ' :: r) m)
    (hlast : ReadsBefore element (')' :: s) last) :
    ReadsBefore (base element) s (.union (members ++ [last])) := by
  have hsep : ∀ r, (orWord? ([' ', 'o', 'r', ' '] ++ r)).bind element = element r := hskip
  have hclose : (orWord? (')' :: s)).bind element = none := rfl
  obtain ⟨ts, helements, hrefs⟩ := elements_listed hsep hclose hmembers hlast (by simp)
  refine ⟨.union ts, ?_, ?_⟩
  · have hend : mark? ')' (')' :: s) = some s := rfl
    rw [ofExpr, ofExprs_eq_map, TypeRef.letters_union, List.cons_append, base, unionRest]
    simp only [Option.bind_eq_bind, helements, Option.bind_some, hend, Option.pure_def]
  · rw [ofExpr, ofExpr, ofExprs_eq_map, ofExprs_eq_map, hrefs]

theorem skipSpaces_skipSpaces (cs : List Char) : skipSpaces (skipSpaces cs) = skipSpaces cs :=
  List.dropWhile_idempotent isSpace cs

/-- Blanks before a type do not matter. -/
theorem typeAt_skipSpaces (depth : Nat) (cs : List Char) :
    typeAt depth (skipSpaces cs) = typeAt depth cs := by
  cases depth with
  | zero => rfl
  | succ depth => rw [typeAt, typeAt, skipSpaces_skipSpaces]

/-- No type starts with a blank. -/
theorem skipSpaces_of_base {element : Reader TypeExpr} {cs : List Char} {r : TypeExpr × List Char}
    (h : base element cs = some r) : skipSpaces cs = cs := by
  unfold base at h
  split at h
  next => rfl
  next =>
    obtain ⟨_, hname, -⟩ := Option.bind_eq_some_iff.mp h
    obtain ⟨_, hword, -⟩ := Option.bind_eq_some_iff.mp hname
    obtain ⟨hw, rfl⟩ := word_eq_some hword
    exact skipSpaces_word hw

/-- A type is read from its spelling, in front of what can follow it. -/
def Reads (isOpen : Bool) (t : TypeExpr) : Prop :=
  ∀ depth s, (ofExpr t).letters.length ≤ depth → Stops isOpen s → s.head? ≠ some '?' →
    ReadsBefore (typeAt depth) s t

/-- The same without question marks at the end of the type, but perhaps behind it. -/
def ReadsBase (isOpen : Bool) (t : TypeExpr) : Prop :=
  ∀ depth s, (ofExpr t).letters.length ≤ depth + 1 → Stops isOpen s →
    ReadsBefore (base (typeAt depth)) s t

theorem ReadsBase.reads {isOpen : Bool} {t : TypeExpr} (h : ReadsBase isOpen t) :
    Reads isOpen t := by
  intro depth s hdepth hs hmark
  cases depth with
  | zero =>
    -- No type has an empty spelling.
    obtain ⟨t', hread, -⟩ := h 0 [] (Nat.le_succ_of_le hdepth) .nil
    rw [List.eq_nil_of_length_eq_zero (Nat.le_zero.mp hdepth)] at hread
    cases hread
  | succ depth =>
    obtain ⟨t', hread, href⟩ := h depth s hdepth hs
    refine ⟨t', ?_, href⟩
    have hnone : mark? '?' s = none := hs.mark?_eq_none (.inl rfl) hmark
    rw [typeAt, skipSpaces_of_base hread]
    simp only [Option.bind_eq_bind, hread, Option.bind_some, hnone, Option.pure_def]

theorem ReadsBase.nullable {isOpen : Bool} {inner : TypeExpr} (h : ReadsBase true inner) :
    Reads isOpen (.nullable inner) := by
  intro depth s hdepth _ _
  rw [ofExpr, TypeRef.letters_nullable, List.length_append] at hdepth
  cases depth with
  | zero => cases hdepth
  | succ depth =>
    obtain ⟨t', hread, href⟩ := h depth ('?' :: s) (by omega) (.mark (by decide) s)
    refine ⟨.nullable t', ?_, by rw [ofExpr, ofExpr, href]⟩
    rw [ofExpr, TypeRef.letters_nullable, List.append_assoc]
    change typeAt (depth + 1) ((ofExpr inner).letters ++ '?' :: s) = _
    rw [typeAt, skipSpaces_of_base hread]
    have hmark : mark? '?' ('?' :: s) = some s := rfl
    simp only [Option.bind_eq_bind, hread, Option.bind_some, hmark, Option.pure_def]

/-- A type with arguments is read if these are. -/
theorem readsBase_applied {isOpen : Bool} {name : String} {args : List TypeExpr} {t : TypeExpr}
    (hname : IsName true name) (hne : args ≠ []) (hargs : ∀ a ∈ args, Reads true a)
    (href : ofExpr t = ofExpr (TypeExpr.applied name args)) (hangled : (ofExpr t).isAngled = true)
    (hhead : (ofExpr t).head = name) (hparts : (ofExpr t).parts = args.map ofExpr) :
    ReadsBase isOpen t := by
  intro depth s hdepth _
  have hletters := TypeRef.letters_angled hangled
  rw [hhead, hparts] at hletters
  have hshort : ∀ a ∈ args, (ofExpr a).letters.length ≤ depth := by
    intro a ha
    have hless := length_letters_lt_listed [',', ' '] '>'
      (List.mem_map_of_mem (f := ofExpr) ha)
    rw [hletters, List.length_append, List.length_cons] at hdepth
    omega
  obtain ⟨t', hread, href'⟩ := base_applied hname (typeAt depth) hne (s := s)
    (fun r => by rw [← typeAt_skipSpaces depth (' ' :: r), ← typeAt_skipSpaces depth r]; rfl)
    (fun a ha s hs hmark => hargs a ha depth s (hshort a ha) hs hmark)
  refine ⟨t', ?_, href'.trans href.symm⟩
  rw [hletters, List.append_assoc]
  exact hread

/-- Every legible type is read from its spelling. -/
theorem Legible.reads {isOpen : Bool} {t : TypeExpr} (h : Legible isOpen t) :
    Reads isOpen t ∧ ((∀ inner, t ≠ .nullable inner) → ReadsBase isOpen t) := by
  induction h with
  | named h =>
      have hbase : ReadsBase _ (.named _) := fun depth s _ hs => base_named h hs (typeAt depth)
      exact ⟨hbase.reads, fun _ => hbase⟩
  | @sequence isOpen element _ ih =>
      have hbase : ReadsBase isOpen (.sequence element) :=
        readsBase_applied isName_sequence (by simp : [element] ≠ [])
          (List.forall_mem_singleton.mpr ih.1) rfl rfl rfl rfl
      exact ⟨hbase.reads, fun _ => hbase⟩
  | @record isOpen key value _ _ ihkey ihvalue =>
      have hbase : ReadsBase isOpen (.record key value) := by
        refine readsBase_applied isName_record (by simp : [key, value] ≠ []) ?_
          rfl rfl rfl rfl
        exact List.forall_mem_cons.mpr ⟨ihkey.1, List.forall_mem_singleton.mpr ihvalue.1⟩
      exact ⟨hbase.reads, fun _ => hbase⟩
  | @generic isOpen name args hname hne _ happlied ih =>
      have hbase : ReadsBase isOpen (.generic name args) :=
        readsBase_applied hname hne (fun a ha => (ih a ha).1) (by rw [happlied]) rfl rfl
          (ofExprs_eq_map args)
      exact ⟨hbase.reads, fun _ => hbase⟩
  | @union isOpen members last _ _ ihmembers ihlast =>
      have hbase : ReadsBase isOpen (.union (members ++ [last])) := by
        intro depth s hdepth _
        have hletters := TypeRef.letters_union ((members ++ [last]).map ofExpr)
        have hshort : ∀ m ∈ members ++ [last], (ofExpr m).letters.length ≤ depth := by
          intro m hm
          have hless := length_letters_lt_listed [' ', 'o', 'r', ' '] ')'
            (List.mem_map_of_mem (f := ofExpr) hm)
          rw [ofExpr, ofExprs_eq_map, hletters, List.length_cons] at hdepth
          omega
        refine base_union (typeAt_skipSpaces depth) (fun m hm r => ?_) ?_
        · exact (ihmembers m hm).1 depth _ (hshort m (List.mem_append_left _ hm)) (.orWord r) nofun
        · exact ihlast.1 depth _ (hshort last (by simp)) (.mark (by decide) s) (by simp)
      exact ⟨hbase.reads, fun _ => hbase⟩
  | @nullable isOpen inner _ hinner ih =>
      exact ⟨(ih.2 hinner).nullable, fun hne => absurd rfl (hne inner)⟩

/-- A type that was read can be spelled and read again, and then stands for the same reference. -/
theorem read_spelling {text : String} {t : TypeExpr} (h : TypeExpr.read? text = some t)
    (table : SymbolTable) :
    ∃ t', TypeExpr.read? (table.spelling (ofExpr t)) = some t' ∧ ofExpr t' = ofExpr t := by
  obtain ⟨⟨ty, rest⟩, hread, h⟩ := Option.bind_eq_some_iff.mp h
  dsimp only at h
  split at h
  next =>
    cases h
    have hlegible := (legible_of_typeAt _ _ _ _ hread).1
    have hspelling : (table.spelling (ofExpr t)).toList = (ofExpr t).letters := by
      refine congrArg String.toList (TypeRef.spellingWith_congr ?_)
      refine (TypeRef.ofExpr_written t).imp fun u hu kind id heq => ?_
      subst heq
      exact hu.elim
    obtain ⟨t', hread', href⟩ := hlegible.reads.1 ((ofExpr t).letters.length + 1) []
      (Nat.le_succ _) .nil nofun
    refine ⟨t', ?_, href⟩
    rw [List.append_nil] at hread'
    rw [TypeExpr.read?, hspelling]
    simp only [hread', Option.bind_eq_bind, Option.bind_some]
    rfl
  next => cases h

theorem read_spelling_lengths : ∃ t,
    TypeExpr.read? "(unsigned  long or record<long long,sequence<undefined>> ?)?" = some t ∧
      ∃ t', TypeExpr.read? (({} : SymbolTable).spelling (ofExpr t)) = some t' ∧
        ofExpr t' = ofExpr t := by
  have hreads : (TypeExpr.read?
      "(unsigned  long or record<long long,sequence<undefined>> ?)?").isSome = true := by
    decide +kernel
  obtain ⟨t, ht⟩ := Option.isSome_iff_exists.mp hreads
  exact ⟨t, ht, read_spelling ht {}⟩

end Syntax

end IdlModel
