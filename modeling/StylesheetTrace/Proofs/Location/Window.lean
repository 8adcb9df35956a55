import Mathlib.Algebra.Ring.Int.Defs
import Mathlib.Data.Nat.Count
import Mathlib.Order.Bounds.Basic
import StylesheetTrace.Proofs.Location.Extension

/-!
# The extent of an element in a window

The search for an element in a window is said without the search (`findExtent_spec`). The extent
begins with the line of the window that opens the name and has the given number of such lines up to
it. It ends with the first line of the window at which the changes of depth, summed up from the
opening line on, are not above zero, or with the last line of the window if there is none. So what
is found depends on the lines of the window only, whatever they hold, and for windows that reach
beyond the lines there are as well as for those that end before they begin.
-/

namespace StylesheetTrace.Location

/-! ## Windows -/

/-- Line `i` lies in the window from `first` to `last`, both included and cut to the lines there
are. -/
def InWindow (lines : List String) (first last : Int) (i : Nat) : Prop :=
  max first 0 ≤ i ∧ (i : Int) ≤ min last (lines.length - 1)

instance (lines : List String) (first last : Int) : DecidablePred (InWindow lines first last) :=
  fun _ => inferInstanceAs (Decidable (_ ∧ _))

/-- Line `i` lies in the window and opens `name`. -/
def IsOpening (name : String) (lines : List String) (first last : Int) (i : Nat) : Prop :=
  InWindow lines first last i ∧ lines[i]?.any (opensIn name) = true

instance (name : String) (lines : List String) (first last : Int) :
    DecidablePred (IsOpening name lines first last) :=
  fun _ => inferInstanceAs (Decidable (_ ∧ _))

/-- By how much the lines from `i` to `j`, both included, change the depth of nesting in `name`. -/
def balance (name : String) (lines : List String) (i j : Nat) : Int :=
  (((lines.drop i).take (j + 1 - i)).map (depthDelta name)).sum

/-- The lines of the window from line `i` on at which the changes of the depth of nesting in `name`,
summed up from line `i` on, are not above zero. -/
def closings (name : String) (lines : List String) (first last : Int) (i : Nat) : Set Nat :=
  {j | InWindow lines first last j ∧ i ≤ j ∧ balance name lines i j ≤ 0}

/-- The lines of a window. -/
def windowLines (lines : List String) (first last : Int) : List String :=
  (lines.drop first.toNat).take ((min last (lines.length - 1) + 1).toNat - first.toNat)

variable {name : String} {lines : List String} {first last : Int}

/-- An element is searched for among the lines of the window. -/
theorem findExtent_eq (name : String) (n : Nat) (lines : List String) (first last : Int) :
    findExtent name n lines first last =
      extentFrom name n first.toNat (windowLines lines first last) := rfl

/-- The lines of the window are numbered from the first on. -/
theorem inWindow_iff {i : Nat} : InWindow lines first last i ↔
    first.toNat ≤ i ∧ i < first.toNat + (windowLines lines first last).length := by
  rw [InWindow, windowLines, List.length_take, List.length_drop]
  omega

/-- A line of the window by its number. -/
theorem getElem?_windowLines {i : Nat} (h : InWindow lines first last i) :
    (windowLines lines first last)[i - first.toNat]? = lines[i]? := by
  have hi : first.toNat + (i - first.toNat) = i := by
    have hbegin := (inWindow_iff.mp h).1
    omega
  have hend : i - first.toNat < (min last ((lines.length : Int) - 1) + 1).toNat - first.toNat := by
    unfold InWindow at h
    omega
  rw [windowLines, List.getElem?_take_of_lt hend, List.getElem?_drop, hi]

/-- An opening line is one of the lines of the window that open the name. -/
theorem isOpening_iff {i : Nat} : IsOpening name lines first last i ↔
    first.toNat ≤ i ∧
      (windowLines lines first last)[i - first.toNat]?.any (opensIn name) = true := by
  constructor
  · rintro ⟨hi, hopens⟩
    exact ⟨(inWindow_iff.mp hi).1, getElem?_windowLines hi ▸ hopens⟩
  · rintro ⟨hbegin, hopens⟩
    obtain ⟨line, hline, -⟩ := (Option.any_eq_true _ _).mp hopens
    obtain ⟨hend, -⟩ := List.getElem?_eq_some_iff.mp hline
    have hi : InWindow lines first last i := inWindow_iff.mpr ⟨hbegin, by omega⟩
    exact ⟨hi, getElem?_windowLines hi ▸ hopens⟩

/-- Up to a line there are as many opening lines as among the lines of the window before it. -/
theorem count_isOpening (i : Nat) : Nat.count (IsOpening name lines first last) i =
    ((windowLines lines first last).take (i - first.toNat)).countP (opensIn name) := by
  induction i with
  | zero => simp
  | succ i ih =>
    rw [Nat.count_succ, ih]
    by_cases hbegin : first.toNat ≤ i
    · rw [Nat.succ_sub hbegin, List.take_add_one, List.countP_append]
      congr 1
      simp only [isOpening_iff, hbegin, true_and]
      cases (windowLines lines first last)[i - first.toNat]? <;> simp [List.countP_cons]
    -- The window has not begun.
    · have hnone : i + 1 - first.toNat = i - first.toNat := by omega
      rw [if_neg fun h => hbegin (isOpening_iff.mp h).1, hnone, Nat.add_zero]

/-- The opening lines are as many as the lines of the window that open the name. -/
theorem count_isOpening_length : Nat.count (IsOpening name lines first last) lines.length =
    (windowLines lines first last).countP (opensIn name) := by
  rw [count_isOpening, List.take_of_length_le]
  rw [windowLines, List.length_take, List.length_drop]
  omega

/-! ## The search among lines -/

/-- Nothing is found among lines too few of which open the name. -/
theorem extentFrom_eq_none {n i : Nat} {ls : List String} :
    extentFrom name (n + 1) i ls = none ↔ ls.countP (opensIn name) < n + 1 := by
  induction ls generalizing n i with
  | nil => simp [extentFrom]
  | cons line ls ih =>
    rw [extentFrom, List.countP_cons]
    by_cases hopens : opensIn name line = true
    · rw [if_pos hopens, if_pos hopens]
      cases n with
      | zero => simp
      | succ n =>
        rw [if_neg (by omega), Nat.add_sub_cancel, ih]
        omega
    · rw [if_neg hopens, if_neg hopens]
      exact ih

/-- What is found begins with a line that opens the name, behind as many other ones as were to be
passed over, and ends where the search for its end does. -/
theorem exists_of_extentFrom {n i : Nat} {ls : List String} {e : Extent}
    (h : extentFrom name (n + 1) i ls = some e) :
    ∃ pre line post, ls = pre ++ line :: post ∧ opensIn name line = true ∧
      pre.countP (opensIn name) = n ∧ e.first = i + pre.length ∧
      e.last = closingLine name (depthDelta name line) e.first post := by
  induction ls generalizing n i with
  | nil => exact absurd h (by simp [extentFrom])
  | cons line ls ih =>
    rw [extentFrom] at h
    by_cases hopens : opensIn name line = true
    · rw [if_pos hopens] at h
      cases n with
      | zero =>
        obtain rfl := Option.some.inj h
        exact ⟨[], line, ls, rfl, hopens, rfl, rfl, rfl⟩
      | succ n =>
        rw [if_neg (by omega), Nat.add_sub_cancel] at h
        obtain ⟨pre, found, post, rfl, hfound, hcount, hfirst, hlast⟩ := ih h
        refine ⟨line :: pre, found, post, rfl, hfound, ?_, ?_, hlast⟩
        · rw [List.countP_cons, if_pos hopens, hcount]
        · rw [hfirst, List.length_cons]
          omega
    · rw [if_neg hopens] at h
      obtain ⟨pre, found, post, rfl, hfound, hcount, hfirst, hlast⟩ := ih h
      refine ⟨line :: pre, found, post, rfl, hfound, ?_, ?_, hlast⟩
      · rw [List.countP_cons, if_neg hopens, Nat.add_zero, hcount]
      · rw [hfirst, List.length_cons]
        omega

/-- The search for an end stops before the first line behind whose beginning the depth is not above
zero, or at the last line. -/
theorem exists_closingLine_eq (name : String) (depth : Int) (i : Nat) (ls : List String) :
    ∃ m, closingLine name depth i ls = i + m ∧ m ≤ ls.length ∧
      (∀ k < m, 0 < depth + ((ls.take k).map (depthDelta name)).sum) ∧
      (depth + ((ls.take m).map (depthDelta name)).sum ≤ 0 ∨ m = ls.length) := by
  induction ls generalizing depth i with
  | nil => exact ⟨0, rfl, Nat.le_refl 0, by simp, Or.inr rfl⟩
  | cons line ls ih =>
    rw [closingLine]
    by_cases hdepth : depth ≤ 0
    · rw [if_pos hdepth]
      exact ⟨0, rfl, Nat.zero_le _, by simp, Or.inl (by simpa using hdepth)⟩
    · rw [if_neg hdepth]
      obtain ⟨m, heq, hle, habove, hend⟩ := ih (depth + depthDelta name line) (i + 1)
      refine ⟨m + 1, by rw [heq]; omega, Nat.succ_le_succ hle, fun k hk => ?_, ?_⟩
      · cases k with
        | zero => simpa using hdepth
        | succ k =>
          rw [List.take_succ_cons, List.map_cons, List.sum_cons, ← Int.add_assoc]
          exact habove k (Nat.lt_of_succ_lt_succ hk)
      · rw [List.take_succ_cons, List.map_cons, List.sum_cons, ← Int.add_assoc]
        exact hend.imp_right fun h => congrArg Nat.succ h

/-! ## The search in a window -/

/-- The balance of the first lines behind an opening line of the window, with its own. -/
theorem balance_eq {pre post : List String} {line : String}
    (h : windowLines lines first last = pre ++ line :: post) {k : Nat} (hk : k ≤ post.length) :
    balance name lines (first.toNat + pre.length) (first.toNat + pre.length + k) =
      depthDelta name line + ((post.take k).map (depthDelta name)).sum := by
  have hdrop : line :: post = (windowLines lines first last).drop pre.length := by
    rw [h, List.drop_left]
  have hlength : k + 1 ≤ ((windowLines lines first last).drop pre.length).length := by
    rw [← hdrop, List.length_cons]
    omega
  rw [windowLines, List.drop_take, List.drop_drop] at hdrop hlength
  have htake : (lines.drop (first.toNat + pre.length)).take (k + 1) = line :: post.take k := by
    rw [← List.take_succ_cons, hdrop, List.take_take]
    congr 1
    rw [List.length_take] at hlength
    omega
  have hcount : first.toNat + pre.length + k + 1 - (first.toNat + pre.length) = k + 1 := by omega
  rw [balance, hcount, htake, List.map_cons, List.sum_cons]

/-- The lines of an extent, said without a search for them. -/
structure Spans (name : String) (n : Nat) (lines : List String) (first last : Int) (e : Extent) :
    Prop where
  /-- The first line is an opening line. -/
  opening : IsOpening name lines first last e.first
  /-- As many opening lines stand before it as are to be passed over. -/
  count_add_one : Nat.count (IsOpening name lines first last) e.first + 1 = n
  /-- The last line is the first of the window from there on at which the changes of depth, summed
  up, are not above zero, or the last of the window if there is none. -/
  closing : IsLeast (closings name lines first last e.first) e.last ∨
    closings name lines first last e.first = ∅ ∧
      IsGreatest {i | InWindow lines first last i} e.last

/-- The lines of an extent are determined by what is said of them. -/
theorem Spans.unique {n : Nat} {e e' : Extent} (h : Spans name n lines first last e)
    (h' : Spans name n lines first last e') : e = e' := by
  have hcount : Nat.count (IsOpening name lines first last) e.first =
      Nat.count (IsOpening name lines first last) e'.first :=
    Nat.succ.inj (h.count_add_one.trans h'.count_add_one.symm)
  have hfirst : e.first = e'.first := Nat.count_injective h.opening h'.opening hcount
  have hlast : e.last = e'.last := by
    rcases h.closing with hleast | ⟨hnone, hgreatest⟩ <;>
      rcases h'.closing with hleast' | ⟨hnone', hgreatest'⟩
    · exact hleast.unique (hfirst ▸ hleast')
    · exact absurd hleast.1 (by rw [hfirst, hnone']; exact Set.notMem_empty _)
    · exact absurd hleast'.1 (by rw [← hfirst, hnone]; exact Set.notMem_empty _)
    · exact hgreatest.unique hgreatest'
  cases e
  cases e'
  simp_all

/-- A line of the window that opens the name, behind the lines of the window before it. -/
theorem isOpening_of_eq {pre post : List String} {line : String}
    (h : windowLines lines first last = pre ++ line :: post) (hopens : opensIn name line = true) :
    IsOpening name lines first last (first.toNat + pre.length) ∧
      Nat.count (IsOpening name lines first last) (first.toNat + pre.length) =
        pre.countP (opensIn name) := by
  constructor
  · refine isOpening_iff.mpr ⟨Nat.le_add_right _ _, ?_⟩
    rw [Nat.add_sub_cancel_left, h, List.getElem?_append_right (Nat.le_refl _), Nat.sub_self,
      List.getElem?_cons_zero]
    exact hopens
  · rw [count_isOpening, Nat.add_sub_cancel_left, h, List.take_left]

/-- The search for an end finds the first line at which the changes of depth are not above zero, or
the last line of the window. -/
theorem closing_of_eq {pre post : List String} {line : String}
    (h : windowLines lines first last = pre ++ line :: post) {i j : Nat}
    (hi : i = first.toNat + pre.length)
    (hj : j = closingLine name (depthDelta name line) i post) :
    IsLeast (closings name lines first last i) j ∨
      closings name lines first last i = ∅ ∧ IsGreatest {i | InWindow lines first last i} j := by
  obtain ⟨m, hend, hle, habove, hbalance⟩ :=
    exists_closingLine_eq name (depthDelta name line) i post
  have hlength : (windowLines lines first last).length = pre.length + (post.length + 1) := by
    rw [h, List.length_append, List.length_cons]
  have hin : InWindow lines first last j := inWindow_iff.mpr (by omega)
  -- Before the end that is found, the depth is above zero.
  have hbefore : ∀ k ∈ closings name lines first last i, j ≤ k := by
    rintro k ⟨-, hk, hnot⟩
    by_contra hlt
    obtain ⟨k, rfl⟩ := Nat.exists_eq_add_of_le hk
    have hm : k < m := by omega
    rw [hi, balance_eq h (by omega)] at hnot
    exact absurd (habove k hm) (Int.not_lt.mpr hnot)
  have hsum : balance name lines i j =
      depthDelta name line + ((post.take m).map (depthDelta name)).sum := by
    rw [hj, hend, hi, balance_eq h hle]
  by_cases hzero : balance name lines i j ≤ 0
  · exact Or.inl ⟨⟨hin, by omega, hzero⟩, hbefore⟩
  · -- The window ends before the depth comes down.
    have hm : m = post.length := hbalance.resolve_left fun h => hzero (hsum ▸ h)
    have hall : ∀ k, InWindow lines first last k → k ≤ j := fun k hk => by
      have hbound := (inWindow_iff.mp hk).2
      omega
    refine Or.inr ⟨Set.eq_empty_of_forall_notMem fun k hk => ?_, hin, hall⟩
    have heq : k = j := Nat.le_antisymm (hall k hk.1) (hbefore k hk)
    exact hzero (heq ▸ hk.2.2)

/-- What is found in a window spans the lines that it should. -/
theorem spans_of_findExtent {n : Nat} {e : Extent}
    (h : findExtent name (n + 1) lines first last = some e) :
    Spans name (n + 1) lines first last e := by
  rw [findExtent_eq] at h
  obtain ⟨pre, line, post, hwindow, hopens, hcount, hfirst, hlast⟩ := exists_of_extentFrom h
  obtain ⟨hopening, hbefore⟩ := isOpening_of_eq hwindow hopens
  rw [← hfirst] at hopening hbefore
  exact ⟨hopening, by rw [hbefore, hcount], closing_of_eq hwindow hfirst hlast⟩

/-- What is found depends on the lines of the window only. -/
theorem windowLines_congr {others : List String}
    (hwindow : ∀ i, InWindow others first last i ↔ InWindow lines first last i)
    (hlines : ∀ i, InWindow lines first last i → others[i]? = lines[i]?) :
    windowLines others first last = windowLines lines first last := by
  refine List.ext_getElem? fun k => ?_
  by_cases hk : InWindow lines first last (first.toNat + k)
  · have hline := getElem?_windowLines hk
    have hother := getElem?_windowLines ((hwindow _).mpr hk)
    rw [Nat.add_sub_cancel_left] at hline hother
    rw [hline, hother, hlines _ hk]
  · have hlength : (windowLines lines first last).length ≤ k := by
      by_contra hlt
      exact hk (inWindow_iff.mpr ⟨by omega, by omega⟩)
    have hlength' : (windowLines others first last).length ≤ k := by
      by_contra hlt
      exact hk ((hwindow _).mp (inWindow_iff.mpr ⟨by omega, by omega⟩))
    rw [List.getElem?_eq_none hlength, List.getElem?_eq_none hlength']

/-- An element is not found in a window exactly when fewer lines of the window open its name than
are asked for. Otherwise the extent begins with the line that is asked for, among those of the
window that open the name; and it ends with the first line of the window from there on up to which
the changes of depth sum up to nothing above zero, or with the last line of the window if there is
none. No line outside the window has an influence on what is found. -/
theorem findExtent_spec {n : Nat} (hn : 1 ≤ n) (name : String) (lines : List String)
    (first last : Int) :
    (findExtent name n lines first last = none ↔
      Nat.count (IsOpening name lines first last) lines.length < n) ∧
    (∀ e, findExtent name n lines first last = some e ↔ Spans name n lines first last e) ∧
    ∀ others : List String,
      (∀ i, InWindow others first last i ↔ InWindow lines first last i) →
      (∀ i, InWindow lines first last i → others[i]? = lines[i]?) →
      findExtent name n others first last = findExtent name n lines first last := by
  obtain ⟨n, rfl⟩ := Nat.exists_eq_add_of_le' hn
  have hnone : findExtent name (n + 1) lines first last = none ↔
      Nat.count (IsOpening name lines first last) lines.length < n + 1 := by
    rw [findExtent_eq, extentFrom_eq_none, count_isOpening_length]
  refine ⟨hnone, fun e => ⟨spans_of_findExtent, fun he => ?_⟩, fun others hwindow hlines => ?_⟩
  · -- The opening line is one of as many as are asked for, so that an extent is found.
    have hcount : n + 1 ≤ Nat.count (IsOpening name lines first last) lines.length := by
      have hlt : e.first < lines.length := by
        have hin := he.opening.1.2
        omega
      rw [← he.count_add_one, ← Nat.count_succ_eq_succ_count he.opening]
      exact Nat.count_monotone _ hlt
    cases hfound : findExtent name (n + 1) lines first last with
    | none => exact absurd (hnone.mp hfound) (Nat.not_lt.mpr hcount)
    | some d => rw [(spans_of_findExtent hfound).unique he]
  · rw [findExtent_eq, findExtent_eq, windowLines_congr hwindow hlines]

/-- A buffer with an end tag that closes nothing, a line that opens and closes, and an element that
is not closed in a window that reaches beyond the lines. -/
def brokenBuffer : List String := ["<b>", "</b></b>", "<x:b><b>", "<b/>", "</b>", "<a>"]

/-- The second line that opens the name in a window behind the first line is the one of an element
that is closed at once; the first one is not closed before the end of the buffer, and other first
lines do not matter for it. -/
theorem findExtent_spec_brokenBuffer :
    1 ≤ 1 ∧ 1 ≤ 2 ∧ Spans "b" 2 brokenBuffer 1 9 ⟨3, 3⟩ ∧ Spans "b" 1 brokenBuffer 1 9 ⟨2, 5⟩ ∧
      findExtent "b" 1 ("</b>" :: brokenBuffer.tail) 1 9 = some ⟨2, 5⟩ := by
  obtain ⟨-, hsecond, -⟩ := findExtent_spec (by decide : 1 ≤ 2) "b" brokenBuffer 1 9
  obtain ⟨-, hfirst, hothers⟩ := findExtent_spec (by decide : 1 ≤ 1) "b" brokenBuffer 1 9
  have hfound : findExtent "b" 1 brokenBuffer 1 9 = some ⟨2, 5⟩ := by decide +kernel
  refine ⟨by decide, by decide, (hsecond _).mp (by decide +kernel), (hfirst _).mp hfound, ?_⟩
  rw [hothers ("</b>" :: brokenBuffer.tail) (fun i => Iff.rfl) (fun i hi => ?_), hfound]
  -- A line of the window is not the first one.
  obtain ⟨k, rfl⟩ := Nat.exists_eq_succ_of_ne_zero fun h : i = 0 => absurd hi (by subst h; decide)
  rfl

end StylesheetTrace.Location
