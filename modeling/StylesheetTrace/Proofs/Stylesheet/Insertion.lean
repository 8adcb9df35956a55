import StylesheetTrace.Proofs.Stylesheet.RoundTrip

/-!
# Where lines are inserted

Before a line of a stylesheet a line is inserted only when the scan, in the state in which it comes
to that line, finds a literal element there (`Inserts.line`). The state is that after the lines
before it, and the text of these lines is the beginning of the stylesheet up to a line feed: each
line adds its own text and the feed (`textBefore_succ`).
-/

namespace StylesheetTrace.Stylesheet

open StylesheetTrace.Text StylesheetTrace.Markup

/-! ## The text before a line -/

/-- The text of the first `n` lines, with the line feeds that end them. -/
def textBefore : Nat → List Char → List Char
  | 0, _ => []
  | _ + 1, [] => []
  | n + 1, c :: s => c :: textBefore (if c == '\n' then n else n + 1) s

/-- There is no text before the first line. -/
@[simp]
theorem textBefore_zero (s : List Char) : textBefore 0 s = [] := by
  cases s <;> rfl

/-- The text of the first lines begins with the first line. -/
theorem textBefore_append_feed {t : List Char} (h : '\n' ∉ t) (n : Nat) (s : List Char) :
    textBefore (n + 1) (t ++ '\n' :: s) = t ++ '\n' :: textBefore n s := by
  induction t with
  | nil => rfl
  | cons c t ih =>
    rw [List.mem_cons, not_or] at h
    have hc : (c == '\n') = false := beq_eq_false_iff_ne.mpr (Ne.symm h.1)
    rw [List.cons_append, textBefore, hc, if_neg Bool.false_ne_true, ih h.2]
    rfl

/-- The text before a line is empty or ends with a line feed. -/
theorem textBefore_eq (n : Nat) (s : List Char) (h : n < (lines s).length) :
    textBefore n s = [] ∨ ∃ t, textBefore n s = t ++ ['\n'] := by
  induction s using feed_induction generalizing n with
  | last t ht =>
    rw [lines_of_not_mem ht, List.length_singleton, Nat.lt_one_iff] at h
    subst h
    exact Or.inl (textBefore_zero t)
  | line t u ht ih =>
    cases n with
    | zero => exact Or.inl (textBefore_zero _)
    | succ n =>
      rw [lines_append_feed ht, List.length_cons] at h
      refine Or.inr ?_
      rw [textBefore_append_feed ht]
      rcases ih n (by omega) with hu | ⟨v, hv⟩
      · exact ⟨t, by rw [hu]⟩
      · exact ⟨t ++ '\n' :: v, by rw [hv, List.append_assoc, List.cons_append]⟩

/-- The end of a line: a line feed, with or without a carriage return before it. -/
def IsLineFeed (s : List Char) : Prop :=
  s = ['\n'] ∨ s = ['\r', '\n']

/-- A line loses at most a carriage return. -/
theorem dropReturn_append (t : List Char) : ∃ r, t = dropReturn t ++ r ∧ IsLineFeed (r ++ ['\n']) := by
  unfold dropReturn
  split
  · rename_i hlast
    obtain ⟨u, rfl⟩ : ∃ u, t = u ++ ['\r'] := List.getLast?_eq_some_iff.mp (by simpa using hlast)
    exact ⟨['\r'], by simp, Or.inr rfl⟩
  · exact ⟨[], by simp, Or.inl rfl⟩

/-- A line that is followed by another stands with its end between the text before it and the text
before the next one. -/
theorem textBefore_succ {n : Nat} {s : List Char} (h : n + 1 < (lines s).length) :
    ∃ line feed, (lines s)[n]? = some line ∧ '\n' ∉ line ∧ IsLineFeed feed ∧
      textBefore (n + 1) s = textBefore n s ++ (line ++ feed) := by
  induction s using feed_induction generalizing n with
  | last t ht =>
    rw [lines_of_not_mem ht, List.length_singleton] at h
    omega
  | line t u ht ih =>
    rw [lines_append_feed ht, List.length_cons] at h
    rw [lines_append_feed ht, textBefore_append_feed ht]
    cases n with
    | zero =>
      obtain ⟨r, hr, hfeed⟩ := dropReturn_append t
      refine ⟨dropReturn t, r ++ ['\n'], rfl, fun hmem => ht ?_, hfeed, ?_⟩
      · rw [hr]
        exact List.mem_append_left r hmem
      · rw [textBefore_zero, textBefore_zero, List.nil_append, ← List.append_assoc, ← hr]
    | succ n =>
      obtain ⟨line, feed, hline, hmem, hfeed, htext⟩ := ih (n := n) (by omega)
      refine ⟨line, feed, by rw [List.getElem?_cons_succ, hline], hmem, hfeed, ?_⟩
      rw [htext, textBefore_append_feed ht, List.append_assoc, List.cons_append]

/-- What follows a line: nothing, or the end of the line and more. -/
def FollowsLine (rest : List Char) : Prop :=
  rest = [] ∨ ∃ feed s, IsLineFeed feed ∧ rest = feed ++ s

/-- A line stands between the text before it and its end. -/
theorem textBefore_append_line {n : Nat} {s line : List Char} (h : (lines s)[n]? = some line) :
    ∃ rest, s = textBefore n s ++ (line ++ rest) ∧ '\n' ∉ line ∧ FollowsLine rest := by
  induction s using feed_induction generalizing n with
  | last t ht =>
    rw [lines_of_not_mem ht] at h
    obtain ⟨rfl, rfl⟩ : n = 0 ∧ t = line := by
      cases n with
      | zero => exact ⟨rfl, Option.some.inj h⟩
      | succ n => exact absurd h (by simp)
    exact ⟨[], by simp, ht, Or.inl rfl⟩
  | line t u ht ih =>
    rw [lines_append_feed ht] at h
    cases n with
    | zero =>
      obtain rfl : dropReturn t = line := Option.some.inj h
      obtain ⟨r, hr, hfeed⟩ := dropReturn_append t
      refine ⟨r ++ '\n' :: u, ?_, fun hmem => ht ?_, Or.inr ⟨_, u, hfeed, by simp⟩⟩
      · rw [textBefore_zero, List.nil_append, ← List.append_assoc, ← hr]
      · rw [hr]
        exact List.mem_append_left r hmem
    | succ n =>
      obtain ⟨rest, hu, hline, hrest⟩ := ih (n := n) h
      refine ⟨rest, ?_, hline, hrest⟩
      rw [textBefore_append_feed ht, List.append_assoc, List.cons_append, ← hu]

/-- A stretch of text on one line that does not end with a carriage return lies within the line. -/
theorem prefix_line {t u line rest : List Char} (h : t ++ u = line ++ rest) (ht : '\n' ∉ t)
    (hlast : t.getLast? ≠ some '\r') (hrest : FollowsLine rest) : t <+: line := by
  rcases List.append_eq_append_iff.mp h with ⟨a, hline, -⟩ | ⟨a, rfl, ha⟩
  · exact ⟨a, hline.symm⟩
  · cases a with
    | nil => exact ⟨[], by simp⟩
    | cons c a =>
      -- The stretch would reach into the end of the line, and past its carriage return.
      exfalso
      rcases hrest with rfl | ⟨feed, s, rfl | rfl, rfl⟩
      · exact absurd ha (by simp)
      · obtain ⟨rfl, -⟩ := List.cons.inj ha
        exact ht (by simp)
      · obtain ⟨rfl, htail⟩ := List.cons.inj ha
        cases a with
        | nil => exact hlast (by simp)
        | cons d a =>
          obtain ⟨rfl, -⟩ := List.cons.inj htail
          exact ht (by simp)

/-! ## Counting lines -/

/-- Before line `n` stand `n` line feeds. -/
theorem count_textBefore {n : Nat} {s : List Char} (h : n < (lines s).length) :
    (textBefore n s).count '\n' = n := by
  induction n with
  | zero => rw [textBefore_zero, List.count_nil]
  | succ n ih =>
    obtain ⟨line, feed, -, hline, hfeed, htext⟩ := textBefore_succ h
    have hone : feed.count '\n' = 1 := by rcases hfeed with rfl | rfl <;> decide
    rw [htext, List.count_append, List.count_append, ih (by omega), hone,
      List.count_eq_zero_of_not_mem hline, Nat.zero_add]

/-- A text with `n` line feeds ends on line `n` of every text that it begins. -/
theorem eq_textBefore_append (u v : List Char) :
    ∃ p, u = textBefore (u.count '\n') (u ++ v) ++ p ∧ '\n' ∉ p := by
  induction u with
  | nil => exact ⟨[], by simp⟩
  | cons c u ih =>
    obtain ⟨p, hu, hp⟩ := ih
    by_cases hc : c = '\n'
    · subst hc
      refine ⟨p, ?_, hp⟩
      rw [List.count_cons_self, List.cons_append, textBefore, if_pos (beq_self_eq_true _),
        List.cons_append, ← hu]
    · rw [List.count_cons_of_ne hc]
      cases hn : u.count '\n' with
      | zero =>
        refine ⟨c :: u, by simp, ?_⟩
        rw [List.mem_cons, not_or]
        exact ⟨Ne.symm hc, List.count_eq_zero.mp hn⟩
      | succ n =>
        rw [hn] at hu
        refine ⟨p, ?_, hp⟩
        rw [List.cons_append, textBefore, if_neg (by simpa using hc), List.cons_append, ← hu]

/-! ## The state before a line -/

/-- Where the scan stands before line `n`, counted from zero. -/
def stateAt (xsl : List Char) (ls : List (List Char)) (n : Nat) : ScanState :=
  (ls.take n).foldl (fun state line => (scanLine xsl state line).2) ⟨0, false⟩

/-- The scan goes from one line to the next. -/
theorem stateAt_succ {xsl : List Char} {ls : List (List Char)} {n : Nat} {line : List Char}
    (h : ls[n]? = some line) :
    stateAt xsl ls (n + 1) = (scanLine xsl (stateAt xsl ls n) line).2 := by
  rw [stateAt, List.take_add_one, h, Option.toList_some, List.foldl_append]
  rfl

/-- What the scan finds on a line it finds in the state before it. -/
theorem getElem?_scanLines (xsl : List Char) (ls : List (List Char)) (n : Nat) :
    (scanLines xsl ls)[n]? =
      ls[n]?.map fun line => (line, (scanLine xsl (stateAt xsl ls n) line).1) := by
  rw [scanLines_eq_scanFrom]
  unfold stateAt
  generalize (⟨0, false⟩ : ScanState) = state
  induction ls generalizing state n with
  | nil => simp [scanFrom]
  | cons line ls ih =>
    rw [scanFrom]
    cases n with
    | zero => rfl
    | succ n => exact ih n (scanLine xsl state line).2

/-- On a line on which the scan finds an element it is outside comments, and a body is open. -/
theorem scanLine_eq_some {xsl : List Char} {state : ScanState} {line : List Char} {mark : Literal}
    (h : (scanLine xsl state line).1 = some mark) :
    state.inComment = false ∧ 0 < depthAfter xsl state.depth line ∧
      literal? xsl line = some mark := by
  unfold scanLine at h
  dsimp only at h
  split at h
  · exact absurd h (by simp)
  · rename_i hcomment
    split at h
    · exact absurd h (by simp)
    · rename_i hdepth
      exact ⟨Bool.not_eq_true _ ▸ hcomment, Nat.pos_of_ne_zero hdepth, h⟩

/-! ## Inserted lines -/

/-- A line is inserted before line `n` of the stylesheet, counted from zero: the lines that are
written for it are more than the line itself. -/
def Inserts (sentinel file : String) (content : List Char) (n : Nat) : Prop :=
  ∃ groups group, instrumentGroups sentinel file content = .ok groups ∧
    groups[n]? = some group ∧ 1 < group.length

/-- A line is inserted only where the scan finds a literal element: outside what it takes for a
comment and inside what it takes for a body. -/
theorem Inserts.line {sentinel file : String} {content : List Char} {n : Nat}
    (h : Inserts sentinel file content n) :
    ∃ line mark, (lines content)[n]? = some line ∧
      (stateAt (instructionPrefix content) (lines content) n).inComment = false ∧
      0 < depthAfter (instructionPrefix content)
        (stateAt (instructionPrefix content) (lines content) n).depth line ∧
      literal? (instructionPrefix content) line = some mark := by
  obtain ⟨groups, group, hgroups, hgroup, hlong⟩ := h
  obtain ⟨⟨s, i⟩, hs, hwritten⟩ := getElem?_mapM_eq_ok hgroups hgroup
  rw [List.getElem?_zipIdx, scanned, getElem?_scanLines, Option.map_map] at hs
  obtain ⟨line, hline, hs⟩ := Option.map_eq_some_iff.mp hs
  obtain ⟨rfl, -⟩ := Prod.mk.inj hs
  refine ⟨line, ?_⟩
  cases hmark : (scanLine (instructionPrefix content)
      (stateAt (instructionPrefix content) (lines content) n) line).1 with
  | none =>
    -- The line alone is written.
    simp only [hmark, instrumentLine] at hwritten
    obtain rfl := Except.ok.inj hwritten
    exact absurd hlong (by simp)
  | some mark => exact ⟨mark, hline, scanLine_eq_some hmark⟩

end StylesheetTrace.Stylesheet
