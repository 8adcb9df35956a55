import StylesheetTrace.Proofs.Location.Extension

/-!
# The descent along a path

The steps of a path lead down into elements, each inside the one before it: the line that opens an
element stands behind the line that opens the one above, and no element reaches further than that
(`pairwise_trail`). The search is a walk through ever smaller windows, so that one invariant carries
this: every extent that is found lies in the window that is searched (`findExtent_within`).

A longer path takes the same way down as the shorter one that it begins with, and then goes on
(`trail_prefix`), unless a step was not found before; so it never resolves to a line further up
(`resolve_longer`).
-/

namespace StylesheetTrace.Location

open StylesheetTrace.Text

/-! ## Extents in a window -/

/-- An extent lies inside another one, and begins behind the line on which that begins. -/
structure Extent.Encloses (outer inner : Extent) : Prop where
  /-- The inner extent begins behind the first line of the outer one. -/
  first_lt : outer.first < inner.first
  /-- The inner extent has a line. -/
  first_le_last : inner.first ≤ inner.last
  /-- The inner extent ends with the outer one at the latest. -/
  last_le : inner.last ≤ outer.last

/-- An extent covers the line on which it begins. -/
theorem first_le_last_of_extentFrom {name : String} {n i : Nat} {ls : List String} {e : Extent}
    (h : extentFrom name n i ls = some e) : e.first ≤ e.last := by
  induction ls generalizing n i with
  | nil => exact absurd h (by simp [extentFrom])
  | cons line ls ih =>
    unfold extentFrom at h
    split at h
    · split at h
      · obtain rfl := Option.some.inj h
        exact le_closingLine name (depthDelta name line) i ls
      · exact ih h
    · exact ih h

/-- An extent that is found lies in the window that is searched. -/
theorem findExtent_within {name : String} {n : Nat} {ls : List String} {first last : Int}
    {e : Extent} (h : findExtent name n ls first last = some e) :
    first ≤ e.first ∧ e.first ≤ e.last ∧ (e.last : Int) ≤ last := by
  have hbegin := (first_of_extentFrom h).1
  have hcovers := first_le_last_of_extentFrom h
  have hend := last_of_extentFrom h
  rw [List.length_take] at hend
  exact ⟨by omega, hcovers, by omega⟩

/-! ## The way down -/

/-- Every extent on the way lies in the window in which the first step is searched. -/
theorem within_of_mem_trailIn {ls : List String} {path : List Step} {first last : Int} {e : Extent}
    (h : e ∈ trailIn ls path first last) :
    first ≤ e.first ∧ e.first ≤ e.last ∧ (e.last : Int) ≤ last := by
  induction path generalizing first last with
  | nil => exact absurd h List.not_mem_nil
  | cons step path ih =>
    unfold trailIn at h
    split at h
    · rename_i d hfound
      obtain ⟨hfirst, hcovers, hlast⟩ := findExtent_within hfound
      rcases List.mem_cons.mp h with rfl | h
      · exact ⟨hfirst, hcovers, hlast⟩
      · -- The window of the further steps lies in that of the first one.
        have hrest := ih h
        omega
    · exact absurd h List.not_mem_nil

/-- Every extent on the way encloses those behind it. -/
theorem pairwise_trailIn (ls : List String) (path : List Step) (first last : Int) :
    (trailIn ls path first last).Pairwise Extent.Encloses := by
  induction path generalizing first last with
  | nil => exact List.Pairwise.nil
  | cons step path ih =>
    unfold trailIn
    split
    · refine List.Pairwise.cons (fun e he => ?_) (ih _ _)
      obtain ⟨hfirst, hcovers, hlast⟩ := within_of_mem_trailIn he
      exact ⟨by omega, hcovers, by omega⟩
    · exact List.Pairwise.nil

/-- Every extent found for a path encloses those found for the steps behind it. -/
theorem pairwise_trail (path : List Step) (ls : List String) :
    (trail path ls).Pairwise Extent.Encloses :=
  pairwise_trailIn ls path 0 _

/-! ## Longer paths -/

/-- A longer path takes the same way down, and goes on from there. -/
theorem trailIn_prefix (ls : List String) (path more : List Step) (first last : Int) :
    trailIn ls path first last <+: trailIn ls (path ++ more) first last := by
  induction path generalizing first last with
  | nil => exact List.nil_prefix
  | cons step path ih =>
    rw [List.cons_append]
    unfold trailIn
    split
    · exact (List.prefix_cons_inj _).mpr (ih _ _)
    · exact List.prefix_refl []

/-- A longer path takes the same way down, and goes on from there. -/
theorem trail_prefix (path more : List Step) (ls : List String) :
    trail path ls <+: trail (path ++ more) ls :=
  trailIn_prefix ls path more 0 _

/-- Where a step is not found, no step behind it is searched. -/
theorem trailIn_append_of_missing {ls : List String} {path : List Step} {first last : Int}
    (h : (trailIn ls path first last).length ≠ path.length) (more : List Step) :
    trailIn ls (path ++ more) first last = trailIn ls path first last := by
  induction path generalizing first last with
  | nil => exact absurd rfl h
  | cons step path ih =>
    rw [List.cons_append]
    unfold trailIn at h ⊢
    cases hfound : findExtent step.name step.index ls first last with
    | none => rfl
    | some e =>
      rw [hfound] at h
      have hrest : (trailIn ls path (e.first + 1) e.last).length ≠ path.length := fun heq =>
        h (congrArg Nat.succ heq)
      exact congrArg (e :: ·) (ih hrest)

/-- A longer path is located where the shorter one is, or further down. -/
theorem locate?_le {path more : List Step} {ls : List String} {k m : Nat}
    (hshort : locate? path ls = some k) (hlong : locate? (path ++ more) ls = some m) : k ≤ m := by
  obtain ⟨d, hd, rfl⟩ := Option.map_eq_some_iff.mp hshort
  obtain ⟨e, he, rfl⟩ := Option.map_eq_some_iff.mp hlong
  obtain ⟨below, hbelow⟩ := trail_prefix path more ls
  have hnested := pairwise_trail (path ++ more) ls
  rw [← hbelow] at he hnested
  rcases List.eq_nil_or_concat below with rfl | ⟨front, x, rfl⟩
  · rw [List.append_nil] at he
    obtain rfl := Option.some.inj (hd.symm.trans he)
    exact Nat.le_refl _
  · -- The last extent is one of those behind the way of the shorter path.
    rw [List.concat_eq_append, ← List.append_assoc, List.getLast?_concat] at he
    obtain rfl := Option.some.inj he
    have hinside : d.Encloses x := (List.pairwise_append.mp hnested).2.2 d (List.mem_of_getLast? hd)
      x (by simp)
    exact Nat.succ_le_succ (Nat.le_of_lt hinside.first_lt)

/-- Where no extent is found for a path, it is not located. -/
theorem locate?_eq_none {path : List Step} {ls : List String} :
    locate? path ls = none ↔ trail path ls = [] := by
  rw [locate?, Option.map_eq_none_iff, List.getLast?_eq_none_iff]

/-- A path that goes on is resolved to the line of the shorter path or further down, and to none
behind the last line. Both take the same way through elements of which each encloses those behind
it, and the line of a path is the one that opens the last of them. Where a step of the shorter path
is not found, both have the same line; where not even the first is found, that is the fallback. -/
theorem resolve_longer {p q : String} {path more : List Step} (hp : steps p = .ok path)
    (hq : steps q = .ok (path ++ more)) (ls : List String) (fallback : Int) :
    ∃ a b : Int, resolve p ls fallback = .ok a ∧ resolve q ls fallback = .ok b ∧
      (trail path ls <+: trail (path ++ more) ls) ∧
      (trail (path ++ more) ls).Pairwise Extent.Encloses ∧
      (∀ e ∈ (trail path ls).getLast?, a = e.first + 1) ∧
      (∀ e ∈ (trail (path ++ more) ls).getLast?, b = e.first + 1) ∧
      (trail path ls ≠ [] → 1 ≤ a ∧ a ≤ b ∧ b ≤ ls.length) ∧
      (¬ AllFound path ls → b = a) ∧
      (path ≠ [] → trail path ls = [] → a = fallback ∧ b = fallback) := by
  have hmissing : ¬ AllFound path ls → trail (path ++ more) ls = trail path ls := fun h =>
    trailIn_append_of_missing h more
  refine ⟨(locate? path ls).elim fallback Int.ofNat,
    (locate? (path ++ more) ls).elim fallback Int.ofNat, by rw [resolve, hp]; rfl,
    by rw [resolve, hq]; rfl, trail_prefix path more ls, pairwise_trail (path ++ more) ls,
    ?_, ?_, ?_, ?_, ?_⟩
  · intro e he
    rw [locate?, Option.mem_def.mp he]
    rfl
  · intro e he
    rw [locate?, Option.mem_def.mp he]
    rfl
  · intro hfirst
    obtain ⟨k, hk⟩ := Option.ne_none_iff_exists'.mp (mt locate?_eq_none.mp hfirst)
    have hlonger : trail (path ++ more) ls ≠ [] := fun hnil => by
      have hbegins := trail_prefix path more ls
      rw [hnil, List.prefix_nil] at hbegins
      exact hfirst hbegins
    obtain ⟨m, hm⟩ := Option.ne_none_iff_exists'.mp (mt locate?_eq_none.mp hlonger)
    have hpos := (locate?_within hk).1
    have hle := locate?_le hk hm
    have hend := (locate?_within hm).2
    rw [hk, hm]
    exact ⟨Int.ofNat_le.mpr hpos, Int.ofNat_le.mpr hle, Int.ofNat_le.mpr hend⟩
  · intro h
    rw [locate?, locate?, hmissing h]
  · intro hne hnil
    have hnot : ¬ AllFound path ls := fun h => by
      rw [AllFound, hnil] at h
      exact hne (List.length_eq_zero_iff.mp h.symm)
    have hnone : locate? path ls = none := locate?_eq_none.mpr hnil
    have hnone' : locate? (path ++ more) ls = none :=
      locate?_eq_none.mpr ((hmissing hnot).trans hnil)
    rw [hnone, hnone']
    exact ⟨rfl, rfl⟩

/-- Lines that are no tree: before the end tag of `a` stands one that is broken. -/
def brokenLines : List String := ["</x>", "<r>", "<a>", "</a <a>", "<b>", "</a>"]

/-- In broken lines the path `/r/a` is resolved to the third line, and goes on to `b` on the
fifth. -/
theorem resolve_longer_brokenLines :
    steps "/r/a" = .ok [⟨"r", 1⟩, ⟨"a", 1⟩] ∧ steps "/r/a/b" = .ok [⟨"r", 1⟩, ⟨"a", 1⟩, ⟨"b", 1⟩] ∧
      ∃ a b : Int, resolve "/r/a" brokenLines 7 = .ok a ∧ resolve "/r/a/b" brokenLines 7 = .ok b ∧
        a = 3 ∧ b = 5 := by
  have hp : steps "/r/a" = .ok [⟨"r", 1⟩, ⟨"a", 1⟩] := by decide +kernel
  have hq : steps "/r/a/b" = .ok ([⟨"r", 1⟩, ⟨"a", 1⟩] ++ [⟨"b", 1⟩]) := by decide +kernel
  obtain ⟨a, b, ha, hb, -, -, hshort, hlong, -⟩ := resolve_longer hp hq brokenLines 7
  exact ⟨hp, hq, a, b, ha, hb, hshort ⟨2, 5⟩ (by decide +kernel), hlong ⟨4, 5⟩ (by decide +kernel)⟩

end StylesheetTrace.Location
