import Mathlib.Data.List.Infix
import StylesheetTrace.Proofs.Text.Refusal
import StylesheetTrace.Yaml.TokenStream

/-!
# Reading a YAML text goes ahead

Whatever is read at a position of a text ends at the same place or further on: what is left then is a
tail of what was left before. It is shown here for each of the things that a text is made of, up to
the gaps between tokens and the tokens that are scalars, properties and directives.
-/

namespace StylesheetTrace.Yaml

open StylesheetTrace.Text

/-! ## Results with a property -/

/-- Where there is a result, it has the property. -/
def Ensures {ε α : Type} (x : Except ε α) (p : α → Prop) : Prop := ∀ a, x = .ok a → p a

namespace Ensures

variable {ε α β : Type} {x : Except ε α} {p : α → Prop}

/-- A result that is there. -/
theorem ok {a : α} (h : p a) : Ensures (.ok a : Except ε α) p := by
  intro b hb
  obtain rfl := Except.ok.inj hb
  exact h

/-- A refusal is no result. -/
theorem error {e : ε} : Ensures (.error e : Except ε α) p := by
  intro b hb
  exact absurd hb (by simp)

/-- A step behind another. -/
theorem bind {f : α → Except ε β} {q : β → Prop} (hx : Ensures x p)
    (hf : ∀ a, p a → Ensures (f a) q) : Ensures (x >>= f) q := by
  intro b hb
  obtain ⟨a, ha, hb⟩ := bind_eq_ok.mp hb
  exact hf a (hx a ha) b hb

/-- A result that is passed on. -/
theorem map {f : α → β} {q : β → Prop} (h : Ensures x fun a => q (f a)) : Ensures (x.map f) q := by
  intro b hb
  obtain ⟨a, ha, rfl⟩ := map_eq_ok.mp hb
  exact h a ha

/-- A result of either of two steps. -/
theorem ite {c : Prop} [Decidable c] {y : Except ε α} (hx : c → Ensures x p)
    (hy : ¬ c → Ensures y p) : Ensures (if c then x else y) p := by
  split
  · rename_i hc
    exact hx hc
  · rename_i hc
    exact hy hc

/-- A property that follows. -/
theorem mono {q : α → Prop} (hx : Ensures x p) (h : ∀ a, p a → q a) : Ensures x q :=
  fun a ha => h a (hx a ha)

/-- A result that may be missing for a breakdown. -/
theorem ofBreakdown {r : Except Breakdown α} (h : Ensures r p) : Ensures (Outcome.ofBreakdown r) p :=
  fun a ha => h a (mapError_eq_ok.mp ha)

end Ensures

/-! ## Positions -/

namespace Cursor

/-- The position `d` is the position `c` or further on in the same text. -/
structure Ahead (c d : Cursor) : Prop where
  /-- What is left to read is a tail of what was left. -/
  rest : d.rest <:+ c.rest
  /-- The text is the same. -/
  size : d.size = c.size

/-- A position is as far on as itself. -/
theorem Ahead.refl (c : Cursor) : Ahead c c := ⟨List.suffix_refl _, rfl⟩

/-- A position ahead of one ahead. -/
theorem Ahead.trans {c d e : Cursor} (h : Ahead c d) (h' : Ahead d e) : Ahead c e :=
  ⟨h'.rest.trans h.rest, h'.size.trans h.size⟩

/-- The next character is passed over. -/
theorem step_eq (c : Cursor) : c.step.rest = c.rest.drop 1 ∧ c.step.size = c.size := by
  unfold step
  split
  · rename_i hrest
    rw [hrest]
    exact ⟨rfl, rfl⟩
  · rename_i hrest
    rw [hrest]
    dsimp only
    split
    · exact ⟨rfl, rfl⟩
    · split
      · exact ⟨rfl, rfl⟩
      · exact ⟨rfl, rfl⟩

/-- What is left behind the next character. -/
@[simp]
theorem rest_step (c : Cursor) : c.step.rest = c.rest.drop 1 := (step_eq c).1

/-- What is left some characters ahead. -/
@[simp]
theorem rest_skip (n : Nat) (c : Cursor) : (skip n c).rest = c.rest.drop n := by
  induction n generalizing c with
  | zero => rfl
  | succ n ih => rw [skip, ih, rest_step, List.drop_drop, Nat.add_comm]

/-- What is left behind the characters of a kind. -/
@[simp]
theorem rest_skipWhile (p : Char → Bool) (c : Cursor) : (c.skipWhile p).rest = c.rest.dropWhile p := by
  rw [skipWhile, rest_skip]
  calc
    c.rest.drop (c.rest.takeWhile p).length
        = (c.rest.takeWhile p ++ c.rest.dropWhile p).drop (c.rest.takeWhile p).length := by
          rw [List.takeWhile_append_dropWhile]
    _ = c.rest.dropWhile p := List.drop_left

/-- The next character lies behind. -/
theorem ahead_step (c : Cursor) : Ahead c c.step :=
  ⟨(step_eq c).1 ▸ List.drop_suffix 1 _, (step_eq c).2⟩

/-- Some characters lie behind. -/
theorem ahead_skip (n : Nat) (c : Cursor) : Ahead c (skip n c) := by
  induction n generalizing c with
  | zero => exact Ahead.refl c
  | succ n ih => exact (ahead_step c).trans (ih c.step)

/-- The characters of a kind lie behind. -/
theorem ahead_skipWhile (p : Char → Bool) (c : Cursor) : Ahead c (c.skipWhile p) :=
  ahead_skip _ c

/-- Less is left behind the next character, if there is one. -/
theorem Ahead.length_lt {c d : Cursor} (h : Ahead c.step d) (hc : c.rest ≠ []) :
    d.rest.length < c.rest.length := by
  have hle := h.rest.length_le
  have hpos := List.length_pos_iff.mpr hc
  rw [rest_step, List.length_drop] at hle
  omega

/-- A break has a character, and lies behind. -/
theorem ahead_step_of_lineBreak? {c d : Cursor} {b : Char} (h : c.lineBreak? = some (b, d)) :
    c.rest ≠ [] ∧ Ahead c.step d := by
  unfold lineBreak? at h
  split at h
  · rename_i hrest
    obtain ⟨-, rfl⟩ := Prod.mk.inj (Option.some.inj h)
    exact ⟨by simp [hrest], ahead_skip 1 c.step⟩
  · rename_i hrest
    have hne : c.rest ≠ [] := by simp [hrest]
    split at h
    · obtain ⟨-, rfl⟩ := Prod.mk.inj (Option.some.inj h)
      exact ⟨hne, Ahead.refl _⟩
    · split at h
      · obtain ⟨-, rfl⟩ := Prod.mk.inj (Option.some.inj h)
        exact ⟨hne, Ahead.refl _⟩
      · exact absurd h (by simp)
  · exact absurd h (by simp)

/-- A break lies behind. -/
theorem ahead_of_lineBreak? {c d : Cursor} {b : Char} (h : c.lineBreak? = some (b, d)) :
    Ahead c d :=
  (ahead_step c).trans (ahead_step_of_lineBreak? h).2

/-- A break that may be there lies behind. -/
theorem ahead_skipBreak (c : Cursor) : Ahead c c.skipBreak := by
  unfold skipBreak
  cases hbreak : c.lineBreak? with
  | none => exact Ahead.refl c
  | some p => exact ahead_of_lineBreak? hbreak

end Cursor

open Cursor

/-! ## Gaps -/

namespace Gap

/-- Line breaks lie behind. -/
theorem ahead_breaksFrom (blanks : Bool) (n : Nat) (c : Cursor) (found : List Char) :
    Ahead c (breaksFrom blanks n c found).2 := by
  induction n generalizing c found with
  | zero => exact Ahead.refl c
  | succ n ih =>
    unfold breaksFrom
    split
    · rename_i hbreak
      exact (ahead_of_lineBreak? hbreak).trans (ih _ _)
    · split
      · exact (ahead_step c).trans (ih _ _)
      · exact Ahead.refl c

/-- A comment lies behind. -/
theorem ahead_lineComment (c : Cursor) : Ahead c (lineComment c).2 :=
  ((ahead_skipWhile (!isEnd ·) c).trans (ahead_step _)).trans
    (ahead_breaksFrom false (c.skipWhile (!isEnd ·)).turns _ [])

/-- Empty lines lie behind. -/
theorem ahead_emptyLines (c : Cursor) : Ahead c (emptyLines c).2 :=
  ahead_breaksFrom true c.turns c []

/-- What stands between tokens lies behind. -/
theorem ahead_readFrom (flow : Bool) (n : Nat) (c : Cursor) (ended : Bool) :
    Ahead c (readFrom flow n c ended).cursor := by
  induction n generalizing c ended with
  | zero => exact Ahead.refl c
  | succ n ih =>
    -- In each turn the blanks are passed over first, whatever comes behind them.
    refine (ahead_skipWhile (isBlank flow) c).trans ?_
    unfold readFrom
    dsimp only
    split
    · exact ahead_lineComment _
    · split
      · exact Ahead.refl _
      · rename_i hbreak
        refine (ahead_of_lineBreak? hbreak).trans ?_
        split
        · exact ahead_emptyLines _
        · exact ih _ _

/-- A gap lies behind. -/
theorem ahead_read (flow : Bool) (c : Cursor) : Ahead c (read flow c).cursor := by
  unfold read
  dsimp only
  split
  · exact (ahead_step c).trans (ahead_readFrom _ _ _ _)
  · exact ahead_readFrom _ _ _ _

/-- The sign of a comment is its first character. -/
theorem length_lt_of_lineComment {c : Cursor} (hc : c.peek = '#') :
    (lineComment c).2.rest.length < c.rest.length := by
  have hahead := ahead_breaksFrom false (c.skipWhile (!isEnd ·)).turns (c.skipWhile (!isEnd ·)).step []
  refine lt_of_le_of_lt hahead.rest.length_le ?_
  cases hrest : c.rest with
  | nil => rw [peek, hrest] at hc; exact absurd hc (by decide)
  | cons ch rest =>
    rw [peek, hrest] at hc
    obtain rfl : ch = '#' := hc
    have hstart : isEnd '#' = false := by decide
    rw [rest_step, rest_skipWhile, hrest, List.dropWhile_cons_of_pos (by simp [hstart]), List.length_drop,
      List.length_cons]
    have := (List.dropWhile_suffix (!isEnd ·) (l := rest)).length_le
    omega

/-- A comment takes a character. -/
theorem length_lt_of_readFrom (flow : Bool) (n : Nat) (c : Cursor) (ended : Bool)
    (h : (readFrom flow n c ended).comment ≠ none) :
    (readFrom flow n c ended).cursor.rest.length < c.rest.length := by
  induction n generalizing c ended with
  | zero => exact absurd rfl h
  | succ n ih =>
    refine lt_of_lt_of_le ?_ (ahead_skipWhile (isBlank flow) c).rest.length_le
    unfold readFrom at h ⊢
    dsimp only at h ⊢
    generalize c.skipWhile (isBlank flow) = d at h ⊢
    split
    · rename_i hsign
      rw [beq_iff_eq] at hsign
      exact length_lt_of_lineComment hsign
    · rename_i hsign
      rw [if_neg hsign] at h
      split
      · rename_i hbreak
        simp only [hbreak] at h
        exact absurd rfl h
      · -- The comment stands behind a break, which is a character already.
        rename_i b e hbreak
        obtain ⟨hd, he⟩ := ahead_step_of_lineBreak? hbreak
        refine lt_of_le_of_lt ?_ (he.length_lt hd)
        split
        · exact (ahead_emptyLines e).rest.length_le
        · exact (ahead_readFrom _ _ _ _).rest.length_le

/-- A comment between tokens takes a character. -/
theorem length_lt_of_read (flow : Bool) (c : Cursor) (h : (read flow c).comment ≠ none) :
    (read flow c).cursor.rest.length < c.rest.length := by
  unfold read at h ⊢
  dsimp only at h ⊢
  split at h
  · rename_i hmark
    rw [if_pos hmark]
    exact lt_of_lt_of_le (length_lt_of_readFrom _ _ _ _ h) (ahead_step c).rest.length_le
  · rename_i hmark
    rw [if_neg hmark]
    exact length_lt_of_readFrom _ _ _ _ h

/-- Comments lie behind. -/
theorem ahead_commentsFrom (n : Nat) (c : Cursor) (found : List Char) :
    Ahead c (commentsFrom n c found).2 := by
  induction n generalizing c found with
  | zero => exact Ahead.refl c
  | succ n ih =>
    refine (ahead_read false c).trans ?_
    unfold commentsFrom
    dsimp only
    split
    · exact Ahead.refl _
    · exact ih _ _

end Gap

/-! ## Plain scalars -/

/-- The breaks in a plain scalar lie behind. -/
theorem ahead_plainBreaks (n : Nat) (c : Cursor) (found : List Char) :
    Ahead c (plainBreaks n c found).2 := by
  induction n generalizing c found with
  | zero => exact Ahead.refl c
  | succ n ih =>
    unfold plainBreaks
    split
    · exact (ahead_step c).trans (ih _ _)
    · split
      · exact Ahead.refl c
      · rename_i hbreak
        refine (ahead_of_lineBreak? hbreak).trans ?_
        split
        · exact Ahead.refl _
        · exact ih _ _

/-- What follows a run of a plain scalar lies behind. -/
theorem ahead_plainSpace (c : Cursor) : Ahead c (plainSpace c).cursor := by
  refine (ahead_skipWhile (· == ' ') c).trans ?_
  unfold plainSpace
  simp only [Cursor.takeWhile]
  split
  · exact Ahead.refl _
  · rename_i hbreak
    refine (ahead_of_lineBreak? hbreak).trans ?_
    split
    · exact Ahead.refl _
    · rename_i d _
      have hbreaks := ahead_plainBreaks d.turns d []
      split
      · rename_i heq
        rwa [heq] at hbreaks
      · rename_i heq
        rwa [heq] at hbreaks

/-- A plain scalar lies behind. -/
theorem ahead_plainFrom (x : PlainContext) (n : Nat) (s : PlainSpace) (found : List Char) :
    Ahead s.cursor (plainFrom x n s found).2.cursor := by
  induction n generalizing s found with
  | zero => exact Ahead.refl _
  | succ n ih =>
    unfold plainFrom
    dsimp only
    generalize (if s.cursor.peek == '#' then 0 else x.runLength s.cursor.rest 0) = size
    split
    · exact Ahead.refl _
    · refine ((ahead_skip size s.cursor).trans (ahead_plainSpace _)).trans ?_
      split
      · exact Ahead.refl _
      · exact ih _ _

/-- A run of a plain scalar takes a character, unless it ends at once. -/
theorem runLength_pos {x : PlainContext} {c : Char} {rest : List Char}
    (h : x.stops c (rest.headD endMark) = false) : 0 < x.runLength (c :: rest) 0 := by
  -- The count only goes up from what was counted before.
  have hle : ∀ (s : List Char) n, n ≤ x.runLength s n := by
    intro s
    induction s with
    | nil => exact fun n => le_rfl
    | cons d s ih =>
      intro n
      rw [PlainContext.runLength]
      split
      · exact le_rfl
      · exact (Nat.le_succ n).trans (ih (n + 1))
  rw [PlainContext.runLength, h]
  exact hle rest 1

/-- A plain scalar lies behind, and has a character where it does not end at once. -/
theorem ahead_plainScalar {x : PlainContext} {c : Cursor} {ch : Char} {rest : List Char}
    (hc : c.rest = ch :: rest) (hsign : ch ≠ '#') (hstops : x.stops ch (rest.headD endMark) = false) :
    Ahead c.step (plainScalar x c).2.cursor := by
  have hpos : 0 < x.runLength c.rest 0 := hc ▸ runLength_pos hstops
  have hpeek : (c.peek == '#') = false := by simp [peek, hc, hsign]
  obtain ⟨n, hn⟩ := Nat.exists_eq_add_one_of_ne_zero hpos.ne'
  -- The first turn of the loop takes the characters of the first run.
  unfold plainScalar
  rw [show c.turns = (c.size + 1) + 1 from rfl, plainFrom]
  dsimp only
  simp only [hpeek, Bool.false_eq_true, if_false, hn]
  rw [if_neg (Nat.succ_ne_zero n)]
  have hrun : Ahead c.step (plainSpace (skip (n + 1) c)).cursor :=
    (ahead_skip n c.step).trans (ahead_plainSpace _)
  split
  · exact hrun
  · exact hrun.trans (ahead_plainFrom _ _ _ _)

/-! ## Properties and directives -/

/-- Bytes behind percent signs lie behind. -/
theorem ahead_uriBytes (n : Nat) (c : Cursor) (found : List Nat) :
    Ensures (uriBytes n c found) fun r => Ahead c r.2 := by
  induction n generalizing c found with
  | zero => exact .ok (Ahead.refl c)
  | succ n ih =>
    unfold uriBytes
    split
    · dsimp only
      split
      · exact (ih _ _).mono fun _ h => ((ahead_step c).trans (ahead_skip 2 _)).trans h
      · exact .error
      · exact .error
    · exact .ok (Ahead.refl c)

/-- A URI lies behind. -/
theorem ahead_uriFrom (old : Bool) (n : Nat) (c : Cursor) (found : List Char) :
    Ensures (uriFrom old n c found) fun r => Ahead c r.2 := by
  induction n generalizing c found with
  | zero => exact .ok (Ahead.refl c)
  | succ n ih =>
    unfold uriFrom
    split
    · split
      · exact .error
      · rename_i hbytes
        split
        · exact .error
        · exact (ih _ _).mono fun _ h => (ahead_uriBytes _ _ _ _ hbytes).trans h
    · split
      · exact (ih _ _).mono fun _ h => (ahead_step c).trans h
      · exact .ok (Ahead.refl c)

/-- A URI that is not empty lies behind. -/
theorem ahead_uri (old : Bool) (c : Cursor) : Ensures (uri old c) fun r => Ahead c r.2 := by
  unfold uri
  split
  · exact .error
  · rename_i huri
    split
    · exact .error
    · exact .ok (ahead_uriFrom _ _ _ _ _ huri)

/-- The handle of a tag lies behind, and has a character. -/
theorem ahead_tagHandle (c : Cursor) : Ensures (tagHandle c) fun r => Ahead c.step r.2 := by
  unfold tagHandle
  split
  · exact .error
  · split
    · exact .ok (Ahead.refl _)
    · dsimp only [Cursor.takeWhile]
      split
      · exact .error
      · exact .ok ((ahead_skipWhile _ _).trans (ahead_step _))

/-- A tag lies behind, and has a character. -/
theorem ahead_tagText (old : Bool) (c : Cursor) :
    Ensures (tagText old c) fun r => Ahead c.step r.2 := by
  unfold tagText
  -- Of two exclamation marks the second one takes the place of the first.
  have hstart : Ahead c.step (if c.peekAt 1 == '!' then ("!!", c.step) else ("!", c)).2.step := by
    split
    · exact ahead_step c.step
    · exact Ahead.refl c.step
  dsimp only
  generalize (if c.peekAt 1 == '!' then ("!!", c.step) else ("!", c)) = q at hstart ⊢
  have hread : ∀ h d, Ahead q.2.step d → Ensures (uri old d >>= fun r =>
      (pure (⟨some h, r.1⟩, r.2) : Outcome (TagText × Cursor))) fun r => Ahead q.2.step r.2 :=
    fun h d hd => (ahead_uri old d).bind fun r hr => .ok (hd.trans hr)
  refine Ensures.bind (p := fun r => Ahead q.2.step r.2) ?_ fun r hr => ?_
  · split
    · refine (ahead_uri old _).bind fun r hr => ?_
      split
      · exact .error
      · exact .ok (((ahead_skip 1 q.2.step).trans hr).trans (ahead_step r.2))
    · split
      · exact .ok (Ahead.refl _)
      · split
        · exact (ahead_tagHandle q.2).bind fun r hr => hread r.1 r.2 hr
        · exact hread q.1 q.2.step (Ahead.refl _)
  · split
    · exact .ok (hstart.trans hr)
    · exact .error

/-- The rest of a line lies behind. -/
theorem ahead_commentLine (c : Cursor) : Ensures (commentLine c) fun r => Ahead c r.2 := by
  unfold commentLine
  have hblanks := ahead_skipWhile (· == ' ') c
  dsimp only [Cursor.takeWhile]
  split
  · dsimp only
    split
    · exact .ok ((hblanks.trans (ahead_skipWhile _ _)).trans (ahead_skipBreak _))
    · exact .error
  · dsimp only
    split
    · exact .ok (hblanks.trans (ahead_skipBreak _))
    · exact .error

/-- A number lies behind. -/
theorem ahead_versionNumber (c : Cursor) : Ensures (versionNumber c) fun r => Ahead c r.2 := by
  unfold versionNumber
  dsimp only [Cursor.takeWhile]
  split
  · exact .error
  · exact .ofBreakdown (.map fun _ _ => ahead_skipWhile Char.isDigit c)

/-- A version lies behind. -/
theorem ahead_version (c : Cursor) : Ensures (version c) fun r => Ahead c r.2 := by
  unfold version
  refine (ahead_versionNumber _).bind fun ⟨major, d⟩ hd => ?_
  dsimp only
  split
  · exact .error
  · refine (ahead_versionNumber _).bind fun ⟨minor, e⟩ he => ?_
    dsimp only
    split
    · exact .ok ((((ahead_skipWhile _ c).trans hd).trans (ahead_step d)).trans he)
    · exact .error

/-- What a handle stands for lies behind. -/
theorem ahead_handleMeaning (old : Bool) (c : Cursor) :
    Ensures (handleMeaning old c) fun r => Ahead c r.2 := by
  unfold handleMeaning
  refine (ahead_tagHandle _).bind fun ⟨handle, d⟩ hd => ?_
  dsimp only
  split
  · exact .error
  · refine (ahead_uri _ _).bind fun ⟨start, e⟩ he => ?_
    dsimp only
    split
    · exact .ok (((((ahead_skipWhile _ c).trans (ahead_step _)).trans hd).trans
        (ahead_skipWhile _ d)).trans he)
    · exact .error

/-- A directive lies behind, and has a character. -/
theorem ahead_directive (old : Bool) (c : Cursor) :
    Ensures (directive old c) fun r => Ahead c.step r.2 := by
  unfold directive
  dsimp only [Cursor.takeWhile]
  have hname := ahead_skipWhile isDirectiveChar c.step
  split
  · exact .error
  · generalize skipWhile isDirectiveChar c.step = d at hname
    generalize List.takeWhile isDirectiveChar c.step.rest = name
    -- Behind any directive its line is read to the end.
    have hline : ∀ r : Directive × Cursor, Ahead d r.2 → Ensures (commentLine r.2 >>= fun q =>
        (pure (r.1, q.2) : Outcome (Directive × Cursor))) fun r => Ahead c.step r.2 :=
      fun r hr => (ahead_commentLine r.2).bind fun q hq => .ok ((hname.trans hr).trans hq)
    split
    · exact (ahead_version d).bind hline
    · split
      · exact (ahead_handleMeaning old d).bind hline
      · exact Ensures.bind (.ok (ahead_skipWhile (!isEnd ·) d)) hline

/-! ## Quoted scalars -/

/-- The digits of an escape lie behind. -/
theorem ahead_numericEscape (size : Nat) (c : Cursor) :
    Ensures (numericEscape size c) fun r => Ahead c r.2 := by
  unfold numericEscape
  dsimp only
  split
  · exact .error
  · split
    · exact .error
    · split
      · exact .ok (ahead_skip size c)
      · exact .error

/-- Breaks in quotes lie behind. -/
theorem ahead_quotedBreaks (n : Nat) (c : Cursor) (found : List Char) :
    Ensures (quotedBreaks n c found) fun r => Ahead c r.2 := by
  induction n generalizing c found with
  | zero => exact .ok (Ahead.refl c)
  | succ n ih =>
    unfold quotedBreaks
    split
    · exact .error
    · dsimp only
      split
      · exact .ok (ahead_skipWhile _ c)
      · rename_i hbreak
        exact (ih _ _).mono fun _ h =>
          ((ahead_skipWhile _ c).trans (ahead_of_lineBreak? hbreak)).trans h

/-- A folded break lies behind. -/
theorem ahead_foldedBreak (b : Char) (c : Cursor) (found : List Char) :
    Ensures (foldedBreak b c found) fun r => Ahead c r.2 := by
  unfold foldedBreak
  split
  · exact .error
  · rename_i hbreaks
    have hahead := ahead_quotedBreaks c.turns c [] _ hbreaks
    exact .ok hahead

/-- An escape lies behind. -/
theorem ahead_escape (c : Cursor) (found : List Char) :
    Ensures (escape c found) fun r => Ahead c r.2 := by
  unfold escape
  dsimp only
  split
  · exact .ok (ahead_step c)
  · exact .map ((ahead_numericEscape _ _).mono fun _ h => (ahead_step c).trans h)
  · split
    · exact (ahead_quotedBreaks _ _ _).mono fun _ h => (ahead_skipBreak c).trans h
    · exact .error

/-- A piece of a quoted scalar lies behind. -/
theorem ahead_quotedPiece (quote : Char) (c : Cursor) (found : List Char) :
    Ensures (quotedPiece quote c found) fun r => ∀ q ∈ r, Ahead c q.2 := by
  unfold quotedPiece
  dsimp only [Cursor.takeWhile]
  split
  · exact .ok (by rintro _ ⟨⟩; exact ahead_skip 2 c)
  split
  · exact .ok (by rintro _ ⟨⟩)
  split
  · exact .map ((ahead_escape _ _).mono (by rintro _ h _ ⟨⟩; exact (ahead_step c).trans h))
  split
  · split
    · rename_i hbreak
      have hd := (ahead_skipWhile isSpaceOrTab c).trans (ahead_of_lineBreak? hbreak)
      exact .map ((ahead_foldedBreak _ _ _).mono (by rintro _ h _ ⟨⟩; exact hd.trans h))
    · split
      · exact .error
      · exact .ok (by rintro _ ⟨⟩; exact ahead_skipWhile _ c)
  · exact .ok (by rintro _ ⟨⟩; exact ahead_step c)

/-- The pieces of a quoted scalar lie behind. -/
theorem ahead_quotedFrom (quote : Char) (n : Nat) (c : Cursor) (found : List Char) :
    Ensures (quotedFrom quote n c found) fun r => Ahead c r.2 := by
  induction n generalizing c found with
  | zero => exact .ok (Ahead.refl c)
  | succ n ih =>
    unfold quotedFrom
    split
    · exact .error
    · exact .ok (ahead_step c)
    · rename_i hpiece
      exact (ih _ _).mono fun _ h => (ahead_quotedPiece _ _ _ _ hpiece _ rfl).trans h

/-- A quoted scalar lies behind, and has a character. -/
theorem ahead_quotedScalar (c : Cursor) : Ensures (quotedScalar c) fun r => Ahead c.step r.2 :=
  ahead_quotedFrom _ _ _ _

/-! ## Block scalars -/

/-- The sign in the head of a block scalar lies behind. -/
theorem ahead_chomping (c : Cursor) : Ahead c (chomping c).2 := by
  unfold chomping
  split
  · exact ahead_step c
  · split
    · exact ahead_step c
    · exact Ahead.refl c

/-- The digit in the head of a block scalar lies behind. -/
theorem ahead_indentation (c : Cursor) : Ensures (indentation c) fun r => Ahead c r.2 := by
  unfold indentation
  split
  · exact .error
  · split
    · exact .ok (ahead_step c)
    · exact .ok (Ahead.refl c)

/-- The head of a block scalar lies behind. -/
theorem ahead_blockHead (c : Cursor) : Ensures (blockHead c) fun r => Ahead c r.2 := by
  unfold blockHead
  dsimp only
  refine (ahead_indentation _).bind fun r hr => ?_
  have hd := (ahead_chomping c).trans hr
  -- The sign may stand before the digit or behind it.
  have hsign : Ahead c (if (chomping c).1.isNone && r.1.isSome then chomping r.2
      else ((chomping c).1, r.2)).2 := by
    split
    · exact hd.trans (ahead_chomping r.2)
    · exact hd
  generalize (if (chomping c).1.isNone && r.1.isSome then chomping r.2
      else ((chomping c).1, r.2)) = q at hsign ⊢
  split
  · exact .error
  · exact (ahead_commentLine _).bind fun q hq => .ok (hsign.trans hq)

/-- The breaks in front of the first line lie behind. -/
theorem ahead_leadingBreaks (n : Nat) (b : BlockBreaks) (l : LeadingBlanks) :
    Ahead b.cursor (leadingBreaks n b l).1.cursor := by
  induction n generalizing b l with
  | zero => exact Ahead.refl _
  | succ n ih =>
    unfold leadingBreaks
    dsimp only
    split
    · exact (ahead_step b.cursor).trans (ih ⟨_, _, _⟩ _)
    · split
      · exact Ahead.refl _
      · rename_i hbreak
        exact (ahead_of_lineBreak? hbreak).trans (ih ⟨_, _, _⟩ _)

/-- The blanks up to a column lie behind. -/
theorem ahead_skipIndent (indent n : Nat) (c : Cursor) : Ahead c (skipIndent indent n c) := by
  induction n generalizing c with
  | zero => exact Ahead.refl c
  | succ n ih =>
    unfold skipIndent
    split
    · exact (ahead_step c).trans (ih _)
    · exact Ahead.refl c

/-- The breaks of empty lines lie behind. -/
theorem ahead_blockBreaksFrom (indent n : Nat) (b : BlockBreaks) :
    Ahead b.cursor (blockBreaksFrom indent n b).cursor := by
  induction n generalizing b with
  | zero => exact Ahead.refl _
  | succ n ih =>
    refine (ahead_skipIndent indent indent b.cursor).trans ?_
    unfold blockBreaksFrom
    dsimp only
    split
    · exact Ahead.refl _
    · rename_i hbreak
      exact (ahead_of_lineBreak? hbreak).trans (ih ⟨_, _, _⟩)

/-- The lines of a block scalar lie behind. -/
theorem ahead_blockLines (x : BlockContext) (n : Nat) (l : BlockLines) :
    Ahead l.breaks.cursor (blockLines x n l).breaks.cursor := by
  induction n generalizing l with
  | zero => exact Ahead.refl _
  | succ n ih =>
    unfold blockLines
    dsimp only [Cursor.takeWhile]
    split
    · exact Ahead.refl _
    · -- The line is read up to its break, and the empty lines behind it.
      have hline := ahead_skipWhile (!isEnd ·) l.breaks.cursor
      generalize skipWhile (!isEnd ·) l.breaks.cursor = d at hline ⊢
      have hbreaks : ∀ e, Ahead d e →
          Ahead l.breaks.cursor (blockBreaks x.indent e).cursor := fun e he =>
        (hline.trans he).trans (ahead_blockBreaksFrom x.indent e.turns ⟨[], e, e⟩)
      split
      · rename_i hbreak
        have hahead := hbreaks _ (ahead_of_lineBreak? hbreak)
        split
        · exact hahead
        · exact hahead.trans (ih ⟨_, _, _⟩)
      · have hahead := hbreaks d (Ahead.refl d)
        split
        · exact hahead
        · exact hahead.trans (ih ⟨_, _, _⟩)

/-- What stands behind the lines of a block scalar lies behind. -/
theorem ahead_blockComments (head : BlockHead) (b : BlockBreaks) :
    Ahead b.cursor (blockComments head b).2 := by
  unfold blockComments
  dsimp only
  split
  · exact Ahead.refl _
  · exact Gap.ahead_commentsFrom _ _ _

/-- A block scalar lies behind, and has a character. -/
theorem ahead_blockScalar (parent : Int) (c : Cursor) :
    Ensures (blockScalar parent c) fun r => Ahead c.step r.cursor := by
  unfold blockScalar
  refine (ahead_blockHead _).bind fun r hd => ?_
  -- The lines follow the breaks in front of them, whose end depends on the head.
  have hlines : ∀ (x : BlockContext) (b : BlockBreaks), Ahead c.step b.cursor →
      Ahead c.step (blockComments r.1 (blockLines x r.2.turns ⟨[], [], b⟩).breaks).2 :=
    fun x b hb => (hb.trans (ahead_blockLines x _ ⟨[], [], b⟩)).trans (ahead_blockComments _ _)
  cases hindent : r.1.indent with
  | none =>
    simp only [hindent]
    have hb := hd.trans (ahead_leadingBreaks r.2.turns ⟨[], r.2, r.2⟩ ⟨none, 0⟩)
    split
    · exact Ensures.bind (p := fun _ => False) .error fun _ h => h.elim
    · exact .ok (hlines _ _ hb)
  | some n =>
    simp only [hindent]
    have hb := fun indent => hd.trans (ahead_blockBreaksFrom indent r.2.turns ⟨[], r.2, r.2⟩)
    split
    · exact Ensures.bind (p := fun _ => False) .error fun _ h => h.elim
    · exact .ok (hlines _ _ (hb _))

end StylesheetTrace.Yaml
