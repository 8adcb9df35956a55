import StylesheetTrace.Proofs.Location.Path
import StylesheetTrace.Proofs.Report.Attribute

/-!
# The dialects of location paths

Each validator qualifies the names of a path in its own way: by a prefix, by the wildcard `*:`, by
the namespace in braces before the name, or by a test of the namespace behind it. A path may mix
these from step to step, leave out an index that is 1 and hold attribute steps and node tests
between its element steps; those are read back from its text, and from that text escaped
(`steps_writtenPath`).

The namespaces are erased from the whole text before it is cut at its slashes, since they may hold
slashes themselves. What is erased lies inside one part of the path all the same: a test is read
only up to the quote that ends its namespace, and in the braces of another step, where no quote
stands, none is read at all (`namespacePredicate?_brace`).
-/

namespace StylesheetTrace.Location

open StylesheetTrace.Text StylesheetTrace.Entity StylesheetTrace.Markup
open StylesheetTrace.Report (Quote)

/-! ## Writing a path -/

/-- The name of a namespace. -/
structure Uri where
  /-- The characters of the name. -/
  chars : List Char
  /-- No single quote ends the name. -/
  single_not_mem : '\'' ∉ chars
  /-- No double quote ends the name. -/
  double_not_mem : '"' ∉ chars
  /-- No brace ends the name. -/
  brace_not_mem : '\x7d' ∉ chars
  /-- No character reference begins in the name. -/
  amp_not_mem : '&' ∉ chars

/-- A test of the namespace. -/
structure NamespaceTest where
  /-- The name that is asked for. -/
  uri : Uri
  /-- The quotes around the name. -/
  quote : Quote
  /-- The blanks behind the opening bracket. -/
  lead : List Char
  /-- The blanks before the equals sign. -/
  left : List Char
  /-- The blanks behind the equals sign. -/
  right : List Char
  /-- The blanks before the closing bracket. -/
  trail : List Char
  /-- All these are blanks. -/
  blank : ∀ c ∈ lead ++ (left ++ (right ++ trail)), isBlank c = true

/-- What stands before the local name of a step. -/
inductive Front where
  | bare
  | prefixed (p : Qualifier)
  | wildcard
  | braced (uri : Uri)

/-- An element step as it is written. -/
structure WrittenStep where
  /-- The step. -/
  step : PathStep
  /-- Its index counts from 1. -/
  index_pos : 1 ≤ step.index
  /-- Its index is one that is read. -/
  index_lt : step.index < 10 ^ TooLong.limit
  /-- What stands before the local name. -/
  front : Front
  /-- The test of the namespace, if there is one. -/
  test : Option NamespaceTest
  /-- The index is written. -/
  indexed : Bool
  /-- The index may be left out when it is 1. -/
  index_eq : indexed = false → step.index = 1

/-- A part of a path that names no element: nothing between two slashes, an attribute, or a node
test. -/
inductive SkippedPart where
  | nothing
  | attr (q : QName)
  | text
  | node
  | comment

/-- What stands between two slashes of a path. -/
inductive PathPart where
  | step (s : WrittenStep)
  | skipped (p : SkippedPart)

/-- The characters of a test. -/
def NamespaceTest.chars (t : NamespaceTest) : List Char :=
  '[' :: (t.lead ++ ("namespace-uri()".toList ++ (t.left ++ '=' :: (t.right ++ t.quote.char ::
    (t.uri.chars ++ t.quote.char :: (t.trail ++ [']']))))))

/-- The characters of what stands before a local name. -/
def Front.chars : Front → List Char
  | bare => []
  | prefixed p => p.chars ++ [':']
  | wildcard => ['*', ':']
  | braced uri => 'Q' :: '\x7b' :: (uri.chars ++ ['\x7d'])

/-- What is left before a local name without the namespace in braces. -/
def Front.kept : Front → List Char
  | braced _ => []
  | f => f.chars

namespace WrittenStep

/-- The characters of the test of a step. -/
def testChars (s : WrittenStep) : List Char := s.test.elim [] NamespaceTest.chars

/-- The index of a step in its brackets. -/
def indexChars (s : WrittenStep) : List Char :=
  if s.indexed then '[' :: (decimal s.step.index ++ [']']) else []

/-- The characters of a step. -/
def chars (s : WrittenStep) : List Char :=
  s.front.chars ++ (s.step.name.chars ++ (s.testChars ++ s.indexChars))

/-- A step without its test. -/
def untested (s : WrittenStep) : List Char :=
  s.front.chars ++ (s.step.name.chars ++ s.indexChars)

/-- A step without its namespaces. -/
def kept (s : WrittenStep) : List Char :=
  s.front.kept ++ (s.step.name.chars ++ s.indexChars)

end WrittenStep

/-- The characters of a part that names no element. -/
def SkippedPart.chars : SkippedPart → List Char
  | nothing => []
  | attr q => '@' :: q.chars
  | text => "text()".toList
  | node => "node()".toList
  | comment => "comment()".toList

namespace PathPart

/-- The characters of a part. -/
def chars : PathPart → List Char
  | step s => s.chars
  | skipped p => p.chars

/-- A part without tests. -/
def untested : PathPart → List Char
  | step s => s.untested
  | skipped p => p.chars

/-- A part without namespaces. -/
def kept : PathPart → List Char
  | step s => s.kept
  | skipped p => p.chars

/-- The step that is searched for, if the part names an element. -/
def step? : PathPart → Option Step
  | step s => some (stepOf s.step)
  | skipped _ => none

end PathPart

/-- The text of a path: its parts with slashes between them. -/
def writtenPath (parts : List PathPart) : List Char :=
  ['/'].intercalate (parts.map PathPart.chars)

/-! ## Tests of the namespace -/

/-- The text after a namespace in quotes is a suffix. -/
theorem suffix_of_afterQuoted? {s rest : List Char} (h : afterQuoted? s = some rest) :
    rest <:+ s := by
  unfold afterQuoted? at h
  split at h
  · exact (suffix_of_afterFirst? h).trans (List.suffix_cons _ _)
  · exact (suffix_of_afterFirst? h).trans (List.suffix_cons _ _)
  · exact absurd h (by simp)

/-- A test takes at least one character. -/
theorem reduces_namespacePredicate : Reduces namespacePredicate? := by
  refine reduces_of_suffix fun s a rest h => ?_
  unfold namespacePredicate? at h
  split at h
  · rename_i t
    refine ⟨'[', t, rfl, ?_⟩
    obtain ⟨u, hname, h⟩ := Option.bind_eq_some_iff.mp h
    obtain ⟨v, hequals, h⟩ := Option.bind_eq_some_iff.mp h
    obtain ⟨w, hquoted, h⟩ := Option.bind_eq_some_iff.mp h
    obtain ⟨x, hclose, h⟩ := Option.bind_eq_some_iff.mp h
    obtain ⟨-, rfl⟩ := Prod.mk.inj (Option.some.inj h)
    have hblanks : ∀ y : List Char, y.dropWhile isBlank <:+ y :=
      fun _ => List.dropWhile_suffix isBlank
    calc x <:+ w := (suffix_of_after? hclose).trans (hblanks w)
      _ <:+ v := (suffix_of_afterQuoted? hquoted).trans (hblanks v)
      _ <:+ u := (suffix_of_after? hequals).trans (hblanks u)
      _ <:+ t := (suffix_of_after? hname).trans (hblanks t)
  · exact absurd h (by simp)

/-- A test begins with a bracket. -/
theorem namespacePredicate?_of_ne {c : Char} (h : c ≠ '[') (s : List Char) :
    namespacePredicate? (c :: s) = none := by
  unfold namespacePredicate?
  split
  · rename_i heq
    exact absurd (List.cons.inj heq).1 h
  · rfl

/-- An index is no test. -/
theorem namespacePredicate?_decimal (n : Nat) (s : List Char) :
    namespacePredicate? ('[' :: (decimal n ++ s)) = none := by
  obtain ⟨c, ds, hdigits⟩ := List.exists_cons_of_ne_nil (decimal_ne_nil n)
  have hc : c ∈ decimal n := hdigits ▸ List.mem_cons_self
  have hdigit := isDigit_of_mem_decimal hc
  have hblank : isBlank c = false :=
    isBlank_eq_false_of_isPrefixChar (isPrefixChar_of_isDigit hdigit)
  have hn : 'n' ≠ c := by
    rintro rfl
    exact absurd hdigit (by decide)
  have hname : after? "namespace-uri()".toList (c :: (ds ++ s)) = none :=
    after?_cons_of_ne hn _ _
  rw [hdigits, List.cons_append, namespacePredicate?,
    List.dropWhile_cons_of_neg (by simp [hblank]), hname]
  rfl

/-- A test is read before any text. -/
theorem namespacePredicate?_chars (t : NamespaceTest) (s : List Char) :
    namespacePredicate? (t.chars ++ s) = some ((), s) := by
  obtain ⟨uri, q, lead, left, right, trail, hblank⟩ := t
  have hchars : (NamespaceTest.mk uri q lead left right trail hblank).chars ++ s =
      '[' :: (lead ++ ("namespace-uri()".toList ++ (left ++ '=' :: (right ++ q.char ::
        (uri.chars ++ q.char :: (trail ++ ']' :: s)))))) := by
    simp [NamespaceTest.chars]
  have hquoted : ∀ u, afterQuoted? (q.char :: (uri.chars ++ q.char :: u)) = some u := by
    intro u
    have hquote : ¬ [q.char] <:+: uri.chars := by
      rw [List.singleton_infix_iff]
      cases q with
      | single => exact uri.single_not_mem
      | double => exact uri.double_not_mem
    have hfirst := @afterFirst?_append [] uri.chars q.char List.not_mem_nil hquote u
    cases q <;> exact hfirst
  have hskip : ∀ {b : List Char} {c : Char} (u : List Char),
      (∀ d ∈ b, d ∈ lead ++ (left ++ (right ++ trail))) → isBlank c = false →
      (b ++ c :: u).dropWhile isBlank = c :: u := fun u hb hc =>
    dropWhile_blanks_append (fun d hd => hblank d (hb d hd)) (head?_cons_eq_false hc u)
  have hlead : ∀ u, (lead ++ ("namespace-uri()".toList ++ u)).dropWhile isBlank =
      "namespace-uri()".toList ++ u := fun u =>
    hskip ("amespace-uri()".toList ++ u) (fun d hd => by simp [hd]) (by decide)
  have hleft : ∀ u, (left ++ '=' :: u).dropWhile isBlank = '=' :: u := fun u =>
    hskip u (fun d hd => by simp [hd]) (by decide)
  have hright : ∀ u, (right ++ q.char :: u).dropWhile isBlank = q.char :: u := fun u =>
    hskip u (fun d hd => by simp [hd]) (by cases q <;> decide)
  have htrail : ∀ u, (trail ++ ']' :: u).dropWhile isBlank = ']' :: u := fun u =>
    hskip u (fun d hd => by simp [hd]) (by decide)
  rw [hchars, namespacePredicate?, hlead, after?_append]
  simp only [Option.bind_eq_bind, Option.bind_some, hleft, after?_cons_cons, after?_nil, hright,
    hquoted, htrail]

/-- A word that is read before a character which does not stand in it leaves a tail of the text
before that character. -/
theorem after?_append_cons {w u s v : List Char} {d : Char} (hd : d ∉ w)
    (h : after? w (u ++ d :: s) = some v) : ∃ b, b <:+ u ∧ v = b ++ d :: s := by
  obtain ⟨b, hu, hv⟩ := append_cons_eq_append hd (after?_eq_some.mp h)
  exact ⟨b, hu ▸ List.suffix_append w b, hv⟩

/-- No text in quotes begins in braces that hold no quote. -/
theorem afterQuoted?_brace {u : List Char} (hsingle : '\'' ∉ u) (hdouble : '"' ∉ u)
    (s : List Char) : afterQuoted? (u ++ '\x7d' :: s) = none := by
  cases u with
  | nil => rfl
  | cons q u =>
    rw [List.cons_append]
    unfold afterQuoted?
    split
    · rename_i heq
      exact absurd ((List.cons.inj heq).1 ▸ List.mem_cons_self) hsingle
    · rename_i heq
      exact absurd ((List.cons.inj heq).1 ▸ List.mem_cons_self) hdouble
    · rfl

/-- In braces no test is read: before the brace that closes them stands no quote. -/
theorem namespacePredicate?_brace {u : List Char} (hsingle : '\'' ∉ u) (hdouble : '"' ∉ u)
    (s : List Char) : namespacePredicate? (u ++ '\x7d' :: s) = none := by
  have hblanks : ∀ v : List Char, (v ++ '\x7d' :: s).dropWhile isBlank =
      v.dropWhile isBlank ++ '\x7d' :: s := fun v =>
    dropWhile_append_of_head (head?_cons_eq_false (by decide) s) v
  rw [Option.eq_none_iff_forall_not_mem]
  rintro ⟨a, rest⟩ h
  cases u with
  | nil => exact absurd h (by simp [namespacePredicate?])
  | cons c t =>
    unfold namespacePredicate? at h
    split at h
    · rename_i t' heq
      have ht : t ++ '\x7d' :: s = t' := (List.cons.inj heq).2
      subst ht
      obtain ⟨v, hname, h⟩ := Option.bind_eq_some_iff.mp h
      obtain ⟨w, hequals, h⟩ := Option.bind_eq_some_iff.mp h
      obtain ⟨x, hquoted, -⟩ := Option.bind_eq_some_iff.mp h
      -- What is left before the brace is still a tail of the text in braces.
      rw [hblanks] at hname
      obtain ⟨b, hb, rfl⟩ := after?_append_cons (by decide) hname
      rw [hblanks] at hequals
      obtain ⟨e, he, rfl⟩ := after?_append_cons (by decide) hequals
      have htail : e.dropWhile isBlank <:+ c :: t :=
        calc e.dropWhile isBlank <:+ e := List.dropWhile_suffix isBlank
          _ <:+ b := he.trans (List.dropWhile_suffix isBlank)
          _ <:+ t := hb.trans (List.dropWhile_suffix isBlank)
          _ <:+ c :: t := List.suffix_cons c t
      have hnone := afterQuoted?_brace (fun h => hsingle (htail.subset h))
        (fun h => hdouble (htail.subset h)) s
      rw [hblanks, hnone] at hquoted
      exact absurd hquoted (by simp)
    · exact absurd h (by simp)

/-- No test is read in braces, at whatever place. -/
theorem silent_brace {u : List Char} (hsingle : '\'' ∉ u) (hdouble : '"' ∉ u) (s : List Char) :
    Silent namespacePredicate? u ('\x7d' :: s) := by
  induction u with
  | nil => trivial
  | cons c u ih =>
    refine ⟨?_, ih (fun h => hsingle (List.mem_cons_of_mem c h)) fun h =>
      hdouble (List.mem_cons_of_mem c h)⟩
    rw [← List.cons_append]
    exact namespacePredicate?_brace hsingle hdouble s

/-! ## The characters of a part -/

/-- A character of a text that was tested throughout is one of a prefix or one of some others. -/
theorem mem_of_all {l others : List Char}
    (hall : l.all (fun c => isPrefixChar c || others.contains c) = true) {c : Char} (h : c ∈ l) :
    isPrefixChar c = true ∨ c ∈ others := by
  have hc := List.all_eq_true.mp hall c h
  rwa [Bool.or_eq_true, List.contains_iff_mem] at hc

/-- An index holds characters of a prefix and brackets. -/
theorem WrittenStep.mem_indexChars {w : WrittenStep} {c : Char} (h : c ∈ w.indexChars) :
    isPrefixChar c = true ∨ c ∈ "[]".toList := by
  unfold WrittenStep.indexChars at h
  split at h
  · rcases List.mem_cons.mp h with rfl | h
    · exact Or.inr (by decide)
    rcases List.mem_append.mp h with h | h
    · exact Or.inl (isPrefixChar_of_isDigit (isDigit_of_mem_decimal h))
    · obtain rfl := List.mem_singleton.mp h
      exact Or.inr (by decide)
  · exact absurd h List.not_mem_nil

/-- A step without its namespaces holds characters of a prefix, colons, asterisks and brackets. -/
theorem WrittenStep.mem_kept {w : WrittenStep} {c : Char} (h : c ∈ w.kept) :
    isPrefixChar c = true ∨ c ∈ ":*[]".toList := by
  rcases List.mem_append.mp h with h | h
  · cases hfront : w.front with
    | prefixed p =>
      rw [hfront] at h
      rcases List.mem_append.mp h with h | h
      · exact Or.inl (p.chars_ok c h)
      · obtain rfl := List.mem_singleton.mp h
        exact Or.inr (by decide)
    | wildcard =>
      rw [hfront] at h
      have hsubset : ['*', ':'] ⊆ ":*[]".toList := by decide
      exact Or.inr (hsubset h)
    | bare | braced =>
      rw [hfront] at h
      exact absurd h List.not_mem_nil
  rcases List.mem_append.mp h with h | h
  · exact Or.inl (LocalName.isPrefixChar_of_mem h)
  · have hsubset : "[]".toList ⊆ ":*[]".toList := by decide
    exact (WrittenStep.mem_indexChars h).imp_right fun h => hsubset h

/-- A part that names no element holds characters of a prefix, colons, at signs and
parentheses. -/
theorem SkippedPart.mem_chars {p : SkippedPart} {c : Char} (h : c ∈ p.chars) :
    isPrefixChar c = true ∨ c ∈ ":@()".toList := by
  cases p with
  | nothing => exact absurd h List.not_mem_nil
  | attr q =>
    rcases List.mem_cons.mp h with rfl | h
    · exact Or.inr (by decide)
    · refine (QName.mem_chars h).imp_right ?_
      rintro rfl
      decide
  | text => exact mem_of_all (by decide) h
  | node => exact mem_of_all (by decide) h
  | comment => exact mem_of_all (by decide) h

/-- What is left of a part without its namespaces holds characters of a prefix and some others. -/
theorem PathPart.mem_kept {p : PathPart} {c : Char} (h : c ∈ p.kept) :
    isPrefixChar c = true ∨ c ∈ ":*[]@()".toList := by
  cases p with
  | step w =>
    have hsubset : ":*[]".toList ⊆ ":*[]@()".toList := by decide
    exact (WrittenStep.mem_kept h).imp_right fun h => hsubset h
  | skipped p =>
    have hsubset : ":@()".toList ⊆ ":*[]@()".toList := by decide
    exact (SkippedPart.mem_chars h).imp_right fun h => hsubset h

/-- A test holds no ampersand. -/
theorem NamespaceTest.amp_not_mem (t : NamespaceTest) : '&' ∉ t.chars := by
  obtain ⟨uri, q, lead, left, right, trail, hblank⟩ := t
  have hblanks : '&' ∉ lead ++ (left ++ (right ++ trail)) := fun h =>
    absurd (hblank '&' h) (by decide)
  have hquote : '&' ≠ q.char := by cases q <;> decide
  simp only [List.mem_append, not_or] at hblanks
  simp only [NamespaceTest.chars, List.mem_cons, List.mem_append, not_or]
  simp [hblanks, uri.amp_not_mem, hquote]

/-- A part of a path holds no ampersand. -/
theorem PathPart.amp_not_mem (p : PathPart) : '&' ∉ p.chars := by
  cases p with
  | step w =>
    have hfront : '&' ∉ w.front.chars := by
      cases w.front with
      | bare => exact List.not_mem_nil
      | prefixed p =>
        exact List.not_mem_append (Qualifier.not_mem_chars (by decide) p) (by decide)
      | wildcard => decide
      | braced uri => simp [Front.chars, uri.amp_not_mem]
    have htest : '&' ∉ w.testChars := by
      unfold WrittenStep.testChars
      cases w.test with
      | none => exact List.not_mem_nil
      | some t => exact t.amp_not_mem
    have hindex : '&' ∉ w.indexChars := fun h =>
      absurd (WrittenStep.mem_indexChars h) (by decide)
    have hname : '&' ∉ w.step.name.chars := LocalName.not_mem_chars (by decide) _
    exact List.not_mem_append hfront
      (List.not_mem_append hname (List.not_mem_append htest hindex))
  | skipped p => exact fun h => absurd (SkippedPart.mem_chars h) (by decide)

/-! ## Erasing the namespaces -/

/-- No test is read where no bracket stands. -/
theorem silent_predicate {t : List Char} (h : '[' ∉ t) (s : List Char) :
    Silent namespacePredicate? t s :=
  silent_of_not_mem (fun _ t hc => namespacePredicate?_of_ne hc t) h s

/-- No test is read before a local name. -/
theorem silent_front (f : Front) (s : List Char) : Silent namespacePredicate? f.chars s := by
  cases f with
  | bare => trivial
  | prefixed p =>
    exact silent_predicate (List.not_mem_append (Qualifier.not_mem_chars (by decide) p)
      (by decide)) s
  | wildcard => exact silent_predicate (by decide) s
  | braced uri =>
    have hbrace : Silent namespacePredicate? (uri.chars ++ ['\x7d']) s := by
      rw [silent_append]
      exact ⟨silent_brace uri.single_not_mem uri.double_not_mem s, silent_predicate (by decide) s⟩
    exact silent_append.mpr ⟨@silent_predicate ['Q', '\x7b'] (by decide) _, hbrace⟩

/-- No test is read in an index. -/
theorem silent_index (w : WrittenStep) (s : List Char) :
    Silent namespacePredicate? w.indexChars s := by
  unfold WrittenStep.indexChars
  split
  · refine ⟨?_, silent_predicate (List.not_mem_append (fun h => ?_) (by decide)) s⟩
    · rw [List.append_assoc]
      exact namespacePredicate?_decimal _ _
    · exact absurd (isDigit_of_mem_decimal h) (by decide)
  · trivial

/-- The test of a step is erased. -/
theorem erase_test (w : WrittenStep) (s : List Char) :
    erase namespacePredicate? (w.testChars ++ s) = erase namespacePredicate? s := by
  unfold WrittenStep.testChars
  cases w.test with
  | none => rfl
  | some t => exact erase_of_some reduces_namespacePredicate (namespacePredicate?_chars t s)

/-- A part of a path loses its test. -/
theorem erase_predicate (p : PathPart) (s : List Char) :
    erase namespacePredicate? (p.chars ++ s) = p.untested ++ erase namespacePredicate? s := by
  cases p with
  | step w =>
    have hname : Silent namespacePredicate? (w.front.chars ++ w.step.name.chars)
        (w.testChars ++ (w.indexChars ++ s)) := silent_append.mpr
      ⟨silent_front _ _, silent_predicate (LocalName.not_mem_chars (by decide) _) _⟩
    calc erase namespacePredicate? (w.chars ++ s)
        = erase namespacePredicate? ((w.front.chars ++ w.step.name.chars) ++
            (w.testChars ++ (w.indexChars ++ s))) := by simp [WrittenStep.chars]
      _ = (w.front.chars ++ w.step.name.chars) ++
            (w.indexChars ++ erase namespacePredicate? s) := by
        rw [erase_append_of_silent hname, erase_test, erase_append_of_silent (silent_index w s)]
      _ = w.untested ++ erase namespacePredicate? s := by simp [WrittenStep.untested]
  | skipped p =>
    exact erase_append_of_silent (silent_predicate
      (fun h => absurd (SkippedPart.mem_chars h) (by decide)) s)

/-- A namespace in braces takes at least one character. -/
theorem reduces_namespaceBraces : Reduces namespaceBraces? := by
  refine reduces_of_suffix fun s a rest h => ?_
  unfold namespaceBraces? at h
  split at h
  · rename_i t
    obtain ⟨tail, htail, heq⟩ := Option.map_eq_some_iff.mp h
    obtain ⟨-, rfl⟩ := Prod.mk.inj heq
    exact ⟨'Q', _, rfl, (suffix_of_afterFirst? htail).trans (List.suffix_cons _ t)⟩
  · exact absurd h (by simp)

/-- A namespace in braces is read up to the first closing brace. -/
theorem namespaceBraces?_braced (uri : Uri) (s : List Char) :
    namespaceBraces? ((Front.braced uri).chars ++ s) = some ((), s) := by
  have hbrace : ¬ ['\x7d'] <:+: uri.chars := by
    rw [List.singleton_infix_iff]
    exact uri.brace_not_mem
  have hfirst : afterFirst? ['\x7d'] (uri.chars ++ '\x7d' :: s) = some s :=
    @afterFirst?_append [] uri.chars '\x7d' List.not_mem_nil hbrace s
  have hchars : (Front.braced uri).chars ++ s = 'Q' :: '\x7b' :: (uri.chars ++ '\x7d' :: s) := by
    simp [Front.chars]
  rw [hchars, namespaceBraces?, hfirst]
  rfl

/-- No namespace in braces is read where no opening brace stands, nor behind the text. -/
theorem silent_braces {t s : List Char} (ht : '\x7b' ∉ t) (hs : ∀ c ∈ s.head?, c ≠ '\x7b') :
    Silent namespaceBraces? t s := by
  induction t with
  | nil => trivial
  | cons c t ih =>
    rw [List.mem_cons, not_or] at ht
    refine ⟨?_, ih ht.2⟩
    unfold namespaceBraces?
    split
    · rename_i u heq
      have hbrace : t ++ s = '\x7b' :: u := (List.cons.inj heq).2
      cases t with
      | nil =>
        obtain rfl : s = '\x7b' :: u := hbrace
        exact absurd rfl (hs '\x7b' rfl)
      | cons d t =>
        obtain rfl := (List.cons.inj hbrace).1
        exact absurd List.mem_cons_self ht.2
    · rfl

/-- Only the namespace in braces is erased before a local name. -/
theorem erase_front (f : Front) (s : List Char) :
    erase namespaceBraces? (f.chars ++ s) = erase namespaceBraces? (f.kept ++ s) := by
  cases f with
  | braced uri => exact erase_of_some reduces_namespaceBraces (namespaceBraces?_braced uri s)
  | bare | prefixed | wildcard => rfl

/-- A part of a path loses its namespace in braces where no opening brace follows. -/
theorem erase_braces (p : PathPart) {s : List Char} (hs : ∀ c ∈ s.head?, c ≠ '\x7b') :
    erase namespaceBraces? (p.untested ++ s) = p.kept ++ erase namespaceBraces? s := by
  have hkept : erase namespaceBraces? (p.kept ++ s) = p.kept ++ erase namespaceBraces? s :=
    erase_append_of_silent (silent_braces (fun h => absurd (PathPart.mem_kept h) (by decide)) hs)
  cases p with
  | step w =>
    calc erase namespaceBraces? (w.untested ++ s)
        = erase namespaceBraces? (w.front.chars ++ ((w.step.name.chars ++ w.indexChars) ++ s)) := by
          rw [WrittenStep.untested, List.append_assoc]
      _ = erase namespaceBraces? (w.kept ++ s) := by
          rw [erase_front, WrittenStep.kept, List.append_assoc w.front.kept]
      _ = w.kept ++ erase namespaceBraces? s := hkept
  | skipped p => exact hkept

/-- A path loses its namespaces part by part. -/
theorem erase_writtenPath (parts : List PathPart) :
    erase namespaceBraces? (erase namespacePredicate? (writtenPath parts)) =
      ['/'].intercalate (parts.map PathPart.kept) := by
  have hslash : ∀ s, namespaceBraces? ('/' :: s) = none := fun s => rfl
  rw [writtenPath,
    erase_intercalate (fun s => namespacePredicate?_of_ne (by decide) s)
      fun p _ s _ => erase_predicate p s,
    erase_intercalate hslash fun p _ s hs => erase_braces p fun c hc => ?_]
  rw [hs c hc]
  decide

/-! ## Reading the steps -/

/-- What is left of a part without its namespaces has no blanks at its ends. -/
theorem strip_kept (p : PathPart) : strip p.kept = p.kept := by
  have hnone : ∀ c ∈ ":*[]@()".toList, ¬ isBlank c = true := List.any_eq_false.mp (by decide)
  refine strip_of_forall_not fun c hc => ?_
  rcases PathPart.mem_kept hc with h | h
  · exact isBlank_eq_false_of_isPrefixChar h
  · exact eq_false_of_ne_true (hnone c h)

/-- The index of a step is read, be it written or left out. -/
theorem indexAfter_indexChars (w : WrittenStep) : indexAfter w.indexChars = .ok w.step.index := by
  unfold WrittenStep.indexChars
  split
  · rw [indexAfter_decimal w.index_lt, Nat.max_eq_left w.index_pos]
  · rename_i h
    rw [w.index_eq (eq_false_of_ne_true h)]
    rfl

/-- The step that a part holds is read from it. -/
theorem stepOf?_kept (p : PathPart) : stepOf? p.kept = .ok p.step? := by
  cases p with
  | step w =>
    have hlead : w.front.kept = [] ∨ ∃ q, w.front.kept = q ++ [':'] ∧ q ≠ [] ∧
        ∀ c ∈ q, isStepPrefixChar c = true := by
      cases w.front with
      | bare | braced => exact Or.inl rfl
      | prefixed p =>
        refine Or.inr ⟨p.chars, rfl, p.ne_nil, fun c hc => ?_⟩
        rw [isStepPrefixChar, p.chars_ok c hc, Bool.true_or]
      | wildcard => exact Or.inr ⟨['*'], rfl, by decide, List.all_eq_true.mp (by decide)⟩
    have hbracket : ∀ c ∈ w.indexChars.head?, isStepPrefixChar c = false ∧ c ≠ ':' := by
      unfold WrittenStep.indexChars
      split
      · intro c hc
        obtain rfl : '[' = c := Option.some.inj hc
        decide
      · simp
    have hparen : '(' ∉ w.kept := fun h => absurd (WrittenStep.mem_kept h) (by decide)
    have hat : w.kept.head? ≠ some '@' := fun h =>
      absurd (WrittenStep.mem_kept (List.mem_of_mem_head? h)) (by decide)
    exact stepOf?_append hlead hbracket hparen hat (indexAfter_indexChars w)
  | skipped p => cases p <;> rfl

/-- The steps of a path are read from any text that is its text once the references are replaced. -/
theorem steps_of_unescape {path : String} {parts : List PathPart}
    (h : unescape path.toList = .ok (writtenPath parts)) :
    steps path = .ok (parts.filterMap PathPart.step?) := by
  have hunqualified :
      unqualified path.toList = .ok (['/'].intercalate (parts.map PathPart.kept)) := by
    rw [unqualified, h, Except.map, erase_writtenPath]
  cases parts with
  | nil =>
    rw [steps, hunqualified]
    rfl
  | cons p parts =>
    have hsplit : splitOn '/' (['/'].intercalate ((p :: parts).map PathPart.kept)) =
        (p :: parts).map PathPart.kept := by
      refine splitOn_intercalate (by simp) fun l hl => ?_
      obtain ⟨q, -, rfl⟩ := List.mem_map.mp hl
      exact fun h => absurd (PathPart.mem_kept h) (by decide)
    have hparts : (((p :: parts).map PathPart.kept).map strip).mapM stepOf? =
        .ok ((p :: parts).map PathPart.step?) := by
      rw [List.map_map, List.mapM_map]
      refine mapM_eq_ok fun q _ => ?_
      rw [Function.comp_apply, Function.comp_apply, strip_kept, stepOf?_kept]
    rw [steps, hunqualified]
    simp only [bind, Except.bind, hsplit, hparts]
    simp [pure, Except.pure, List.filterMap_map]

/-- The element steps of a path are read from its text, in whatever dialects they are written and
whatever stands between them, and from that text escaped, be it for quotes too or not
(`readable_escapeChar`, `readable_escapeQuotedChar`). -/
theorem steps_writtenPath (parts : List PathPart) :
    steps (String.ofList (writtenPath parts)) = .ok (parts.filterMap PathPart.step?) ∧
      ∀ write, Readable write → steps (String.ofList ((writtenPath parts).flatMap write)) =
        .ok (parts.filterMap PathPart.step?) := by
  constructor
  · have hamp : '&' ∉ writtenPath parts := by
      refine not_mem_intercalate (by decide) fun l hl => ?_
      obtain ⟨p, -, rfl⟩ := List.mem_map.mp hl
      exact p.amp_not_mem
    refine steps_of_unescape ?_
    rw [String.toList_ofList, unescape, if_neg (by simpa using hamp)]
  · intro write hwrite
    refine steps_of_unescape ?_
    rw [String.toList_ofList, unescape_flatMap hwrite]

/-- A path that mixes the dialects: a prefix, a namespace in braces with a slash in it, a wildcard
with a test, and an attribute at the end. -/
def mixedPath : List PathPart :=
  [.skipped .nothing,
    .step {
      step := ⟨⟨'I', "nvoice".toList, by decide, List.all_eq_true.mp (by decide)⟩, 1⟩
      index_pos := by decide
      index_lt := Nat.one_lt_pow (by decide) (by decide)
      front := .prefixed ⟨"ubl".toList, by decide, List.all_eq_true.mp (by decide)⟩
      test := none
      indexed := false
      index_eq := fun _ => rfl },
    .step {
      step := ⟨⟨'L', "ine".toList, by decide, List.all_eq_true.mp (by decide)⟩, 2⟩
      index_pos := by decide
      index_lt := Nat.lt_of_lt_of_le (by decide) (Nat.le_self_pow (by decide) 10)
      front := .braced ⟨"a/b".toList, by decide, by decide, by decide, by decide⟩
      test := none
      indexed := true
      index_eq := fun h => absurd h (by decide) },
    .step {
      step := ⟨⟨'A', "mount".toList, by decide, List.all_eq_true.mp (by decide)⟩, 1⟩
      index_pos := by decide
      index_lt := Nat.one_lt_pow (by decide) (by decide)
      front := .wildcard
      test := some {
        uri := ⟨"urn:c".toList, by decide, by decide, by decide, by decide⟩
        quote := .double
        lead := []
        left := [' ']
        right := [' ']
        trail := []
        blank := List.all_eq_true.mp (by decide) }
      indexed := true
      index_eq := fun _ => rfl },
    .skipped (.attr ⟨none, ⟨'i', "d".toList, by decide, List.all_eq_true.mp (by decide)⟩⟩)]

/-- The mixed path, as it stands and escaped for quotes. -/
theorem steps_writtenPath_mixedPath :
    steps "/ubl:Invoice/Q\x7ba/b\x7dLine[2]/*:Amount[namespace-uri() = \"urn:c\"][1]/@id" =
        .ok [⟨"Invoice", 1⟩, ⟨"Line", 2⟩, ⟨"Amount", 1⟩] ∧
      Readable escapeQuotedChar ∧
      steps "/ubl:Invoice/Q\x7ba/b\x7dLine[2]/*:Amount[namespace-uri() = &quot;urn:c&quot;][1]/@id"
        = .ok [⟨"Invoice", 1⟩, ⟨"Line", 2⟩, ⟨"Amount", 1⟩] := by
  obtain ⟨hraw, hescaped⟩ := steps_writtenPath mixedPath
  exact ⟨hraw, readable_escapeQuotedChar, hescaped escapeQuotedChar readable_escapeQuotedChar⟩

end StylesheetTrace.Location
