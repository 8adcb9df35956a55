import StylesheetTrace.Proofs.Text.Erase

/-!
# Where the forms of a text stand

Each form of a text takes a span of it. The spans of the forms that a scan finds do not overlap
(`not_inside`), and a form that can be read anywhere is found by the scan unless it begins inside
another one (`mem_or_inside`). So a form found by one reader takes the same span as a form found by
a second reader exactly when the second can read such a form at its place and has not begun another
one before (`span_mem_spans_iff`). What a text keeps without its forms are the characters outside
their spans (`outside_spans`).
-/

namespace StylesheetTrace.Text

/-! ## Places -/

/-- A form in a text, with its place. -/
structure Place (α : Type) where
  /-- What is read there. -/
  form : α
  /-- The text from its beginning on. -/
  tail : List Char
  /-- The text behind it. -/
  rest : List Char

/-- The reader, with the place of what it reads. -/
def withPlace {α : Type} (r : Reader α) : Reader (Place α) := fun s =>
  (r s).map fun found => (⟨found.1, s, found.2⟩, found.2)

/-- The characters of a text between two places, each counted from 0. -/
structure Span where
  /-- The place of the first of the characters. -/
  start : Nat
  /-- The place behind the last of them. -/
  stop : Nat
  deriving Repr, DecidableEq

/-- The span holds the place. -/
def Span.holds (x : Span) (i : Nat) : Bool :=
  decide (x.start ≤ i ∧ i < x.stop)

/-- The span begins before another one, which begins inside of it. -/
def Span.Interrupts (x y : Span) : Prop :=
  x.start < y.start ∧ y.start < x.stop

instance (x y : Span) : Decidable (x.Interrupts y) :=
  inferInstanceAs (Decidable (_ ∧ _))

/-- The span that a form takes of a text. -/
def Place.span {α : Type} (s : List Char) (p : Place α) : Span :=
  ⟨s.length - p.tail.length, s.length - p.rest.length⟩

/-- The forms of a text, each with the span that it takes. -/
def spans {α : Type} (r : Reader α) (s : List Char) : List (α × Span) :=
  (collect (withPlace r) s).map fun p => (p.form, p.span s)

/-- The characters of a text that lie in none of the spans, of which the first has the place `i`. -/
def outsideFrom (i : Nat) (xs : List Span) (s : List Char) : List Char :=
  ((s.zipIdx i).filter fun p => !xs.any fun x => x.holds p.2).map Prod.fst

/-- The characters of a text that lie in none of the spans. -/
def outside (xs : List Span) (s : List Char) : List Char :=
  outsideFrom 0 xs s

section

variable {α β : Type} {r : Reader α}

/-- Where nothing is read, nothing is read with its place. -/
theorem withPlace_eq_none {s : List Char} : withPlace r s = none ↔ r s = none :=
  Option.map_eq_none_iff

/-- What is read is read with its place. -/
theorem withPlace_of_some {s : List Char} {a : α} {rest : List Char} (h : r s = some (a, rest)) :
    withPlace r s = some (⟨a, s, rest⟩, rest) := by
  rw [withPlace, h]
  rfl

/-- What is read with its place is read at that place. -/
theorem read_of_withPlace {s : List Char} {p : Place α} {rest : List Char}
    (h : withPlace r s = some (p, rest)) : p.tail = s ∧ p.rest = rest ∧ r s = some (p.form, rest) := by
  obtain ⟨found, hfound, heq⟩ := Option.map_eq_some_iff.mp h
  obtain ⟨rfl, rfl⟩ := Prod.mk.inj heq
  exact ⟨rfl, rfl, hfound⟩

/-- With the places a reader takes as many characters. -/
theorem advances_withPlace (hr : Advances r) : Advances (withPlace r) := fun s _ rest h =>
  hr s _ rest (read_of_withPlace h).2.2

/-- The forms of a text are those found with their places. -/
theorem map_form_collect (hr : Advances r) (s : List Char) :
    (collect (withPlace r) s).map Place.form = collect r s := by
  induction s using scan_induction hr.reduces with
  | nil => rfl
  | plain c s h ih =>
    rw [collect_cons_of_none h, collect_cons_of_none (withPlace_eq_none.mpr h), ih]
  | form s a rest h ih =>
    rw [collect_of_some hr.reduces h,
      collect_of_some (advances_withPlace hr).reduces (withPlace_of_some h), List.map_cons, ih]

/-- The forms of a text are those found with their spans. -/
theorem map_fst_spans (hr : Advances r) (s : List Char) :
    (spans r s).map Prod.fst = collect r s := by
  rw [spans, List.map_map, ← map_form_collect hr]
  rfl

/-- A form is read at its place, which is in the text. -/
theorem read_of_mem (hr : Advances r) {s : List Char} {p : Place α} (h : p ∈ collect (withPlace r) s) :
    p.tail <:+ s ∧ r p.tail = some (p.form, p.rest) := by
  induction s using scan_induction hr.reduces with
  | nil => exact absurd h List.not_mem_nil
  | plain c s hnone ih =>
    rw [collect_cons_of_none (withPlace_eq_none.mpr hnone)] at h
    exact ⟨(ih h).1.trans (List.suffix_cons c s), (ih h).2⟩
  | form s a rest hform ih =>
    rw [collect_of_some (advances_withPlace hr).reduces (withPlace_of_some hform), List.mem_cons] at h
    rcases h with rfl | h
    · exact ⟨List.suffix_refl s, hform⟩
    · exact ⟨(ih h).1.trans (hr.suffix hform), (ih h).2⟩

/-- What can be read at a place in the text is found there, unless the place is inside a form that
begins before it. -/
theorem mem_or_inside (hr : Advances r) {s t rest : List Char} {a : α} (ht : t <:+ s)
    (h : r t = some (a, rest)) :
    ⟨a, t, rest⟩ ∈ collect (withPlace r) s ∨
      ∃ p ∈ collect (withPlace r) s, t.length < p.tail.length ∧ p.rest.length < t.length := by
  induction s using scan_induction hr.reduces with
  | nil =>
    rw [List.suffix_nil.mp ht, hr.reduces.nil_eq_none] at h
    exact absurd h (by simp)
  | plain c s hnone ih =>
    rw [collect_cons_of_none (withPlace_eq_none.mpr hnone)]
    rcases List.suffix_cons_iff.mp ht with rfl | ht
    · exact absurd (hnone.symm.trans h) (by simp)
    · exact ih ht
  | form s b rest' hform ih =>
    rw [collect_of_some (advances_withPlace hr).reduces (withPlace_of_some hform)]
    by_cases hlen : t.length ≤ rest'.length
    · -- The place is behind the first form.
      have hrest : t <:+ rest' := List.suffix_of_suffix_length_le ht (hr.suffix hform) hlen
      rcases ih hrest with hmem | ⟨p, hp, hinside⟩
      · exact Or.inl (List.mem_cons_of_mem _ hmem)
      · exact Or.inr ⟨p, List.mem_cons_of_mem _ hp, hinside⟩
    · by_cases hwhole : t = s
      · subst hwhole
        obtain ⟨rfl, rfl⟩ := Prod.mk.inj (Option.some.inj (h.symm.trans hform))
        exact Or.inl List.mem_cons_self
      · refine Or.inr ⟨_, List.mem_cons_self, ?_, Nat.lt_of_not_le hlen⟩
        exact Nat.lt_of_le_of_ne ht.length_le fun heq => hwhole (ht.eq_of_length heq)

/-- No form that a scan finds begins inside another one. -/
theorem not_inside (hr : Advances r) {s : List Char} {p q : Place α}
    (hp : p ∈ collect (withPlace r) s) (hq : q ∈ collect (withPlace r) s) :
    ¬ (q.tail.length < p.tail.length ∧ p.rest.length < q.tail.length) := by
  induction s using scan_induction hr.reduces with
  | nil => exact absurd hp List.not_mem_nil
  | plain c s hnone ih =>
    rw [collect_cons_of_none (withPlace_eq_none.mpr hnone)] at hp hq
    exact ih hp hq
  | form s a rest hform ih =>
    have hlen := hr.reduces s a rest hform
    -- The forms behind the first one begin behind it.
    have hbehind : ∀ p ∈ collect (withPlace r) rest, p.tail.length ≤ rest.length := fun p hp =>
      (read_of_mem hr hp).1.length_le
    rw [collect_of_some (advances_withPlace hr).reduces (withPlace_of_some hform), List.mem_cons] at hp hq
    rcases hp with rfl | hp
    · rcases hq with rfl | hq
      · exact fun h => absurd h.1 (Nat.lt_irrefl _)
      · exact fun h => absurd h.2 (Nat.not_lt.mpr (hbehind q hq))
    · rcases hq with rfl | hq
      · intro h
        have hle := hbehind p hp
        dsimp only at h
        omega
      · exact ih hp hq

/-! ## Spans -/

/-- Where forms begin and end in a text, told by what is left of it. -/
theorem interrupts_span {s : List Char} {p : Place α} {q : Place β} (hp : p.tail <:+ s)
    (hrest : p.rest <:+ p.tail) (hq : q.tail <:+ s) :
    (p.span s).Interrupts (q.span s) ↔
      q.tail.length < p.tail.length ∧ p.rest.length < q.tail.length := by
  have htail := hp.length_le
  have hlen := hrest.length_le
  have hother := hq.length_le
  unfold Place.span Span.Interrupts
  dsimp only
  omega

/-- A form takes the span of a form that a second reader finds exactly when the second reader can
read a form there which ends at the same place, and finds none that begins before and ends behind
its beginning. -/
theorem span_mem_spans_iff {r' : Reader β} (hr : Advances r) (hr' : Advances r') {s : List Char}
    {p : Place α} (hp : p ∈ collect (withPlace r) s) :
    p.span s ∈ (spans r' s).map Prod.snd ↔
      (∃ b, r' p.tail = some (b, p.rest)) ∧
        ∀ x ∈ (spans r' s).map Prod.snd, ¬ x.Interrupts (p.span s) := by
  obtain ⟨hptail, hpread⟩ := read_of_mem hr hp
  have hsuffix : p.rest <:+ s := (hr.suffix hpread).trans hptail
  have hmem : ∀ x, x ∈ (spans r' s).map Prod.snd ↔ ∃ q ∈ collect (withPlace r') s, q.span s = x := by
    intro x
    simp [spans]
  constructor
  · intro h
    obtain ⟨q, hq, hspan⟩ := (hmem _).mp h
    obtain ⟨hqtail, hqread⟩ := read_of_mem hr' hq
    have hqsuffix : q.rest <:+ s := (hr'.suffix hqread).trans hqtail
    -- Equal spans begin and end with the same texts.
    obtain ⟨hstart, hstop⟩ := Span.mk.inj hspan
    have htail : q.tail = p.tail := by
      have hlen : q.tail.length = p.tail.length := by
        have hle := hqtail.length_le
        have hle' := hptail.length_le
        omega
      exact (List.suffix_of_suffix_length_le hqtail hptail (Nat.le_of_eq hlen)).eq_of_length hlen
    have hrest : q.rest = p.rest := by
      have hlen : q.rest.length = p.rest.length := by
        have hle := hqsuffix.length_le
        have hle' := hsuffix.length_le
        omega
      exact (List.suffix_of_suffix_length_le hqsuffix hsuffix (Nat.le_of_eq hlen)).eq_of_length hlen
    refine ⟨⟨q.form, by rw [← htail, hqread, hrest]⟩, fun x hx => ?_⟩
    obtain ⟨q', hq', rfl⟩ := (hmem _).mp hx
    obtain ⟨hqtail', hqread'⟩ := read_of_mem hr' hq'
    rw [← hspan, interrupts_span hqtail' (hr'.suffix hqread') hqtail]
    exact not_inside hr' hq' hq
  · rintro ⟨⟨b, hb⟩, hnone⟩
    rcases mem_or_inside hr' hptail hb with hfound | ⟨q, hq, hinside⟩
    · exact (hmem _).mpr ⟨_, hfound, rfl⟩
    · obtain ⟨hqtail, hqread⟩ := read_of_mem hr' hq
      refine absurd ?_ (hnone _ ((hmem _).mpr ⟨q, hq, rfl⟩))
      rwa [interrupts_span hqtail (hr'.suffix hqread) hptail]

/-! ## Outside the spans -/

/-- Whether a character is kept is told by its place. -/
theorem outsideFrom_cons {i : Nat} {xs : List Span} (c : Char) (s : List Char) :
    outsideFrom i xs (c :: s) =
      (if xs.any fun x => x.holds i then [] else [c]) ++ outsideFrom (i + 1) xs s := by
  unfold outsideFrom
  rw [List.zipIdx_cons, List.filter_cons]
  cases xs.any fun x => x.holds i <;> rfl

/-- The parts of a text are kept each for itself. -/
theorem outsideFrom_append {i : Nat} {xs : List Span} (s t : List Char) :
    outsideFrom i xs (s ++ t) = outsideFrom i xs s ++ outsideFrom (i + s.length) xs t := by
  rw [outsideFrom, List.zipIdx_append, List.filter_append, List.map_append]
  rfl

/-- Nothing is kept of what lies in the span. -/
theorem outsideFrom_of_inside {i : Nat} {x : Span} {xs : List Span} {s : List Char}
    (hstart : x.start ≤ i) (hstop : i + s.length ≤ x.stop) : outsideFrom i (x :: xs) s = [] := by
  induction s generalizing i with
  | nil => rfl
  | cons c s ih =>
    rw [List.length_cons] at hstop
    have hholds : x.holds i = true := decide_eq_true ⟨hstart, by omega⟩
    rw [outsideFrom_cons, ih (by omega) (by omega), List.any_cons, hholds]
    rfl

/-- Behind a span it does not matter. -/
theorem outsideFrom_of_behind {i : Nat} {x : Span} {xs : List Span} {s : List Char}
    (hstop : x.stop ≤ i) : outsideFrom i (x :: xs) s = outsideFrom i xs s := by
  induction s generalizing i with
  | nil => rfl
  | cons c s ih =>
    have hholds : x.holds i = false := decide_eq_false fun h => by omega
    rw [outsideFrom_cons, outsideFrom_cons, ih (by omega), List.any_cons, hholds, Bool.false_or]

/-- What the end of a text keeps without its forms are its characters outside their spans, when the
places are counted in a text of the length `n`. -/
theorem outsideFrom_places (hr : Advances r) (n : Nat) (s : List Char) (hn : s.length ≤ n) :
    outsideFrom (n - s.length)
        ((collect (withPlace r) s).map fun p => ⟨n - p.tail.length, n - p.rest.length⟩) s =
      erase r s := by
  induction s using scan_induction hr.reduces with
  | nil => rfl
  | plain c s h ih =>
    rw [List.length_cons] at hn
    -- The forms of the rest begin behind the character.
    have hbefore : (((collect (withPlace r) s).map fun p =>
        (⟨n - p.tail.length, n - p.rest.length⟩ : Span)).any fun x =>
          x.holds (n - (c :: s).length)) = false := by
      rw [List.any_map, List.any_eq_false]
      intro p hp
      have hlen := (read_of_mem hr hp).1.length_le
      simp only [Function.comp_apply, Span.holds, List.length_cons, decide_eq_true_eq]
      omega
    have hnext : n - (c :: s).length + 1 = n - s.length := by
      rw [List.length_cons]
      omega
    rw [collect_cons_of_none (withPlace_eq_none.mpr h), outsideFrom_cons, hbefore, hnext,
      ih (by omega), erase_cons_of_none h]
    rfl
  | form s a rest h ih =>
    obtain ⟨u, rfl⟩ := hr.suffix h
    rw [List.length_append] at hn
    have hnext : n - (u ++ rest).length + u.length = n - rest.length := by
      rw [List.length_append]
      omega
    rw [collect_of_some (advances_withPlace hr).reduces (withPlace_of_some h), List.map_cons,
      erase_of_some hr.reduces h, ← ih (by omega), outsideFrom_append, hnext]
    -- The first form takes what stands before the rest, and no more.
    dsimp only
    rw [outsideFrom_of_inside (x := ⟨_, n - rest.length⟩) (Nat.le_refl _) (Nat.le_of_eq hnext),
      outsideFrom_of_behind (x := ⟨_, n - rest.length⟩) (Nat.le_refl _), List.nil_append]

/-- What a text keeps without its forms are its characters outside the spans of these. -/
theorem outside_spans (hr : Advances r) (s : List Char) :
    outside ((spans r s).map Prod.snd) s = erase r s := by
  have h := outsideFrom_places hr s.length s (Nat.le_refl _)
  rw [Nat.sub_self] at h
  rw [← h, spans, List.map_map]
  rfl

end

end StylesheetTrace.Text
