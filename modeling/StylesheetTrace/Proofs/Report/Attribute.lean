import Mathlib.Data.List.Infix
import StylesheetTrace.Proofs.Entity.Reference
import StylesheetTrace.Proofs.Text.Blank
import StylesheetTrace.Report.Assertion

/-!
# The search for attributes

An attribute that a violation is read from stands behind a blank, with blanks around its equals sign
and with quotes of either kind around its value (`attribute?_assignment`, `exists_of_attribute?`).
Behind a blank only one name can be read, since the names of the fields differ in their first
characters; without a blank nothing is read (`attribute?_of_not_blank`).
-/

namespace StylesheetTrace.Report

open StylesheetTrace.Text StylesheetTrace.Entity StylesheetTrace.Markup

/-! ## Assignments -/

/-- A quote of either kind. -/
inductive Quote where
  | double
  | single
  deriving DecidableEq

/-- The character of a quote. -/
def Quote.char : Quote → Char
  | double => '"'
  | single => '\''

/-- The name of a field and the equals sign, with blanks around that, up to the quote before the
value. -/
def assignment (f : Field) (left right : List Char) (q : Quote) : List Char :=
  f.name.toList ++ (left ++ '=' :: (right ++ [q.char]))

/-! ## Names and values -/

/-- A quote is no angle bracket and no slash. -/
theorem Quote.char_ne (q : Quote) : q.char ≠ '<' ∧ q.char ≠ '>' ∧ q.char ≠ '/' := by
  cases q <;> decide

/-- An angle bracket is no quote. -/
theorem Quote.ne_char {d : Char} (hd : d = '<' ∨ d = '>') (q : Quote) : d ≠ q.char := by
  rcases hd with rfl | rfl
  · exact q.char_ne.1.symm
  · exact q.char_ne.2.1.symm

/-- The first character of the name of a field. -/
def Field.initial : Field → Char
  | id => 'i'
  | flag => 'f'
  | location => 'l'

/-- The name of a field begins with its first character. -/
theorem Field.name_eq_cons (f : Field) : ∃ w, f.name.toList = f.initial :: w := by
  cases f with
  | id => exact ⟨"d".toList, by decide⟩
  | flag => exact ⟨"lag".toList, by decide⟩
  | location => exact ⟨"ocation".toList, by decide⟩

/-- The name of a field does not stand where another character does. -/
theorem after?_name_of_ne {f : Field} {c : Char} (h : f.initial ≠ c) (s : List Char) :
    after? f.name.toList (c :: s) = none := by
  obtain ⟨w, hw⟩ := f.name_eq_cons
  rw [hw, after?_cons_of_ne h]

/-- Of what is tried for each field only that for one field remains, when the others give
nothing. -/
theorem findSome?_all {β : Type} {r : Field → Option β} {f : Field} (h : ∀ g, g ≠ f → r g = none) :
    Field.all.findSome? r = r f := by
  cases f with
  | id =>
    rw [Field.all, List.findSome?_cons, List.findSome?_cons, List.findSome?_cons,
      h .flag (by decide), h .location (by decide)]
    cases r .id <;> rfl
  | flag =>
    rw [Field.all, List.findSome?_cons, List.findSome?_cons, List.findSome?_cons,
      h .id (by decide), h .location (by decide)]
    cases r .flag <;> rfl
  | location =>
    rw [Field.all, List.findSome?_cons, List.findSome?_cons, List.findSome?_cons,
      h .id (by decide), h .flag (by decide)]
    cases r .location <;> rfl

/-- A value stands between quotes of one kind, and holds none of these. -/
theorem quotedValue?_eq_some {s value rest : List Char} :
    quotedValue? s = some (value, rest) ↔
      ∃ q : Quote, s = q.char :: (value ++ q.char :: rest) ∧ q.char ∉ value := by
  have hcut : ∀ {c : Char} {t : List Char}, cut? [c] t = some (value, rest) →
      t = value ++ c :: rest ∧ c ∉ value := by
    intro c t h
    obtain ⟨ht, hvalue⟩ := cut?_eq_some (List.cons_ne_nil c []) h
    exact ⟨ht, by rwa [List.singleton_infix_iff] at hvalue⟩
  constructor
  · intro h
    unfold quotedValue? at h
    split at h
    · obtain ⟨rfl, hvalue⟩ := hcut h
      exact ⟨.double, rfl, hvalue⟩
    · obtain ⟨rfl, hvalue⟩ := hcut h
      exact ⟨.single, rfl, hvalue⟩
    · exact absurd h (by simp)
  · rintro ⟨q, rfl, hvalue⟩
    have hread := cut?_append (v := []) (List.not_mem_nil (a := q.char))
      (by rwa [List.nil_append, List.singleton_infix_iff]) rest
    cases q <;> exact hread

/-- An attribute is read behind a blank. -/
theorem attribute?_assignment (f : Field) (q : Quote) {left right raw : List Char}
    (hblank : ∀ c ∈ left ++ right, isBlank c = true) (hquote : q.char ∉ raw) {c : Char}
    (hc : isBlank c = true) (s : List Char) :
    attribute? (c :: (assignment f left right q ++ (raw ++ q.char :: s))) = some ((f, raw), s) := by
  have hvalue : quotedValue? (q.char :: (raw ++ q.char :: s)) = some (raw, s) :=
    quotedValue?_eq_some.mpr ⟨q, rfl, hquote⟩
  have hchars : assignment f left right q ++ (raw ++ q.char :: s) =
      f.name.toList ++ (left ++ '=' :: (right ++ q.char :: (raw ++ q.char :: s))) := by
    simp [assignment]
  -- The names of the fields differ in their first characters, so that only one is found.
  have hother : ∀ g, g ≠ f → ∀ t, after? g.name.toList (f.name.toList ++ t) = none := by
    intro g hg t
    obtain ⟨w, hw⟩ := f.name_eq_cons
    rw [hw, List.cons_append]
    refine after?_name_of_ne ?_ _
    revert hg
    cases f <;> cases g <;> decide
  have hleft : ∀ t, (left ++ '=' :: t).dropWhile isBlank = '=' :: t := fun t =>
    dropWhile_blanks_append (fun d hd => hblank d (by simp [hd]))
      (head?_cons_eq_false (by decide) t)
  have hright : ∀ t, (right ++ q.char :: t).dropWhile isBlank = q.char :: t := fun t =>
    dropWhile_blanks_append (fun d hd => hblank d (by simp [hd]))
      (head?_cons_eq_false (by cases q <;> decide) t)
  rw [hchars, attribute?, if_pos hc,
    @findSome?_all _ _ f fun g hg => by rw [hother g hg]; rfl]
  simp only [after?_append, Option.bind_eq_bind, Option.bind_some, hleft, after?_cons_cons,
    after?_nil, hright, hvalue]

/-- What is read as an attribute is an assignment to a field behind a blank. -/
theorem exists_of_attribute? {s rest raw : List Char} {f : Field}
    (h : attribute? s = some ((f, raw), rest)) :
    ∃ c left right q, s = c :: (assignment f left right q ++ (raw ++ q.char :: rest)) ∧
      isBlank c = true ∧ ∀ d ∈ left ++ right, isBlank d = true := by
  cases s with
  | nil => exact absurd h (by simp [attribute?])
  | cons c s =>
    rw [attribute?] at h
    split at h
    · rename_i hc
      obtain ⟨g, -, hg⟩ := List.exists_of_findSome?_eq_some h
      obtain ⟨t, ht, hequals⟩ := Option.bind_eq_some_iff.mp hg
      obtain ⟨u, hu, hvalue⟩ := Option.bind_eq_some_iff.mp hequals
      obtain ⟨⟨value, v⟩, hv, hend⟩ := Option.bind_eq_some_iff.mp hvalue
      obtain ⟨hfield, rfl⟩ := Prod.mk.inj (Option.some.inj hend)
      obtain ⟨rfl, rfl⟩ := Prod.mk.inj hfield
      obtain ⟨q, hq, -⟩ := quotedValue?_eq_some.mp hv
      -- The blanks before and behind the equals sign are those that are passed over.
      have hright : u = u.takeWhile isBlank ++ q.char :: (value ++ q.char :: v) := by
        rw [← hq, List.takeWhile_append_dropWhile]
      have hleft : t = t.takeWhile isBlank ++ '=' :: u := by
        rw [← List.singleton_append (x := '='), ← after?_eq_some.mp hu,
          List.takeWhile_append_dropWhile]
      refine ⟨c, t.takeWhile isBlank, u.takeWhile isBlank, q, ?_, hc, fun d hd => ?_⟩
      · have hs : s = g.name.toList ++ (t.takeWhile isBlank ++ '=' ::
            (u.takeWhile isBlank ++ q.char :: (value ++ q.char :: v))) := by
          rw [← hright, ← hleft]
          exact after?_eq_some.mp ht
        rw [hs]
        simp [assignment]
      · rcases List.mem_append.mp hd with hd | hd
        · exact List.mem_takeWhile_imp hd
        · exact List.mem_takeWhile_imp hd
    · exact absurd h (by simp)

/-- An attribute takes at least one character. -/
theorem reduces_attribute : Reduces attribute? := by
  refine reduces_of_suffix ?_
  rintro s ⟨f, raw⟩ rest h
  obtain ⟨c, left, right, q, rfl, -⟩ := exists_of_attribute? h
  refine ⟨c, _, rfl, List.IsSuffix.trans ?_ (List.suffix_append _ _)⟩
  exact (List.suffix_cons q.char rest).trans (List.suffix_append raw _)

/-! ## Reading attributes -/

/-- The name of a field begins with no blank. -/
theorem Field.initial_ne_of_isBlank {c : Char} (hc : isBlank c = true) (f : Field) :
    f.initial ≠ c := by
  rintro rfl
  revert hc
  cases f <;> decide

/-- Nothing is read where there is no blank. -/
theorem attribute?_of_not_blank {c : Char} (hc : isBlank c = false) (s : List Char) :
    attribute? (c :: s) = none := by
  rw [attribute?, if_neg (by simp [hc])]

/-- Nothing is read at a blank behind which no name of a field begins. -/
theorem attribute?_eq_none {c : Char} {s : List Char}
    (hs : ∀ d ∈ s.head?, ∀ f : Field, f.initial ≠ d) : attribute? (c :: s) = none := by
  have hnone : ∀ f : Field, after? f.name.toList s = none := by
    intro f
    cases s with
    | nil => cases f <;> rfl
    | cons d s => exact after?_name_of_ne (hs d rfl f) s
  unfold attribute?
  simp only [hnone, Option.bind_eq_bind, Option.bind_none, ite_eq_right_iff]
  intro
  rw [List.findSome?_eq_none_iff]
  simp

/-- Nothing is read at blanks behind which no name of a field begins. -/
theorem silent_attribute? {t s : List Char} (ht : ∀ c ∈ t, isBlank c = true)
    (hs : ∀ d ∈ s.head?, ∀ f : Field, f.initial ≠ d) : Silent attribute? t s := by
  induction t with
  | nil => trivial
  | cons c t ih =>
    have ht' : ∀ d ∈ t, isBlank d = true := fun d hd => ht d (List.mem_cons_of_mem c hd)
    refine ⟨attribute?_eq_none fun d hd => ?_, ih ht'⟩
    cases t with
    | nil => exact hs d hd
    | cons e t =>
      obtain rfl : e = d := Option.some.inj hd
      exact Field.initial_ne_of_isBlank (ht' e List.mem_cons_self)

/-! ## Names in a tag -/

/-- Behind blanks the name of a tag has ended, as a word too, if it ends where there are none. -/
theorem endsName_append {t u : List Char} (ht : ∀ c ∈ t.head?, isBlank c = true)
    (hname : endsName u = true) (hword : endsWord u = true) :
    endsName (t ++ u) = true ∧ endsWord (t ++ u) = true := by
  cases t with
  | nil => exact ⟨hname, hword⟩
  | cons c t =>
    have hc := ht c rfl
    simp [endsName, endsWord, hc, isWord_eq_false_of_isBlank hc]

end StylesheetTrace.Report
