import StylesheetTrace.Proofs.Location.Resolve

/-!
# Paths in output that goes on

A path that is resolved in output which was cut off is resolved to the same line in the whole of it,
provided that every one of its steps is found before the cut (`resolve_append`). An element that is
not closed before the cut reaches to its end, so that the windows in which the further steps are
searched may differ: the window in the whole output begins at the same line, and it ends at the same
line too or goes on behind the cut (`Outgrows`). This is kept from one step to the next.
-/

namespace StylesheetTrace.Location

open StylesheetTrace.Text

/-! ## Extents -/

/-- An element is not closed before the line that opens it. -/
theorem le_closingLine (name : String) (depth : Int) (i : Nat) (ls : List String) :
    i ≤ closingLine name depth i ls := by
  induction ls generalizing depth i with
  | nil => exact Nat.le_refl i
  | cons line ls ih =>
    rw [closingLine]
    split
    · exact Nat.le_refl i
    · exact Nat.le_trans (Nat.le_succ i) (ih _ (i + 1))

/-- An element is closed on one of the lines behind that which opens it, or ends with the last. -/
theorem closingLine_le (name : String) (depth : Int) (i : Nat) (ls : List String) :
    closingLine name depth i ls ≤ i + ls.length := by
  induction ls generalizing depth i with
  | nil => exact Nat.le_refl i
  | cons line ls ih =>
    rw [closingLine, List.length_cons]
    split
    · exact Nat.le_add_right i _
    · have hrest := ih (depth + depthDelta name line) (i + 1)
      omega

/-- An element is closed on the same line when further lines follow, or it reaches to the end of the
lines and may go on behind it. -/
theorem closingLine_append (name : String) (depth : Int) (i : Nat) (ls ms : List String) :
    closingLine name depth i (ls ++ ms) = closingLine name depth i ls ∨
      closingLine name depth i ls = i + ls.length ∧
        i + ls.length ≤ closingLine name depth i (ls ++ ms) := by
  induction ls generalizing depth i with
  | nil => exact Or.inr ⟨rfl, le_closingLine name depth i ms⟩
  | cons line ls ih =>
    rw [List.cons_append, closingLine, closingLine, List.length_cons]
    split
    · exact Or.inl rfl
    · have hlength : i + (ls.length + 1) = i + 1 + ls.length := by omega
      rw [hlength]
      exact ih (depth + depthDelta name line) (i + 1)

/-- An extent ends with one of the lines that are searched. -/
theorem last_of_extentFrom {name : String} {n i : Nat} {ls : List String} {e : Extent}
    (h : extentFrom name n i ls = some e) : e.last < i + ls.length := by
  induction ls generalizing n i with
  | nil => exact absurd h (by simp [extentFrom])
  | cons line ls ih =>
    rw [List.length_cons]
    unfold extentFrom at h
    split at h
    · split at h
      · obtain rfl := Option.some.inj h
        exact Nat.lt_succ_of_le (closingLine_le name (depthDelta name line) i ls)
      · have hrest := ih h
        omega
    · have hrest := ih h
      omega

/-- An extent that is found begins on the same line when further lines follow; it ends on the same
line too, or it reaches to the end of the lines and may go on behind it. -/
theorem extentFrom_append_of_some {name : String} {n i : Nat} {ls : List String} {e : Extent}
    (h : extentFrom name n i ls = some e) (ms : List String) :
    ∃ d, extentFrom name n i (ls ++ ms) = some d ∧ d.first = e.first ∧
      (d.last = e.last ∨ e.last + 1 = i + ls.length ∧ e.last ≤ d.last) := by
  induction ls generalizing n i with
  | nil => exact absurd h (by simp [extentFrom])
  | cons line ls ih =>
    have hlength : i + (line :: ls).length = i + 1 + ls.length := by
      rw [List.length_cons]
      omega
    rw [List.cons_append, hlength]
    unfold extentFrom at h ⊢
    split at h
    · rename_i hopens
      rw [if_pos hopens]
      split at h
      · rename_i hn
        obtain rfl := Option.some.inj h
        refine ⟨_, if_pos hn, rfl, ?_⟩
        rcases closingLine_append name (depthDelta name line) i ls ms with hsame | ⟨hend, hle⟩
        · exact Or.inl hsame
        · refine Or.inr ⟨?_, ?_⟩
          · dsimp only
            omega
          · dsimp only
            omega
      · rename_i hn
        rw [if_neg hn]
        exact ih h
    · rename_i hopens
      rw [if_neg hopens]
      exact ih h

/-! ## Windows -/

/-- Of two windows that begin at one line, the second ends where the first does, or the first
reaches to the last line `stop` before the cut and the second may go on behind it. -/
def Outgrows (stop last last' : Int) : Prop :=
  last' = last ∨ last = stop ∧ last ≤ last'

/-- The lines of a window are the first lines of one that outgrows it. -/
theorem window_append {ls : List String} {last last' : Int} (hlast : last ≤ ls.length - 1)
    (hgrows : Outgrows (ls.length - 1) last last') (more : List String) (start : Nat) :
    ∃ ms, ((ls ++ more).drop start).take ((min last' ((ls ++ more).length - 1) + 1).toNat - start) =
        (ls.drop start).take ((min last (ls.length - 1) + 1).toNat - start) ++ ms ∧
      (last' = last → ms = []) := by
  have hstop : (min last (ls.length - 1) + 1).toNat ≤ ls.length := by omega
  rw [List.drop_append, List.take_append, List.length_drop]
  rcases hgrows with rfl | ⟨hend, hle⟩
  · -- Both windows end before the cut.
    have hsame : (min last' (((ls ++ more).length : Int) - 1) + 1).toNat =
        (min last' (ls.length - 1) + 1).toNat := by
      rw [List.length_append]
      omega
    refine ⟨[], ?_, fun _ => rfl⟩
    have hnone : (min last' ((ls.length : Int) - 1) + 1).toNat - start - (ls.length - start) = 0 := by
      omega
    rw [hsame, hnone, List.take_zero]
  · -- The first window reaches to the cut, so that the second has all its lines.
    have hwhole : (min last ((ls.length : Int) - 1) + 1).toNat - start = ls.length - start := by
      omega
    have hmore : ls.length - start ≤
        (min last' (((ls ++ more).length : Int) - 1) + 1).toNat - start := by
      rw [List.length_append]
      omega
    have hall : ∀ k, ls.length - start ≤ k → (ls.drop start).take k = ls.drop start := fun k hk =>
      List.take_of_length_le (Nat.le_trans (Nat.le_of_eq List.length_drop) hk)
    refine ⟨(more.drop (start - ls.length)).take ((min last' (((ls ++ more).length : Int) - 1) +
      1).toNat - start - (ls.length - start)), ?_, fun hsame => ?_⟩
    · rw [hwhole, hall _ hmore, hall _ (Nat.le_refl _)]
    · have hnone : (min last' (((ls ++ more).length : Int) - 1) + 1).toNat - start -
          (ls.length - start) = 0 := by
        rw [List.length_append]
        omega
      rw [hnone, List.take_zero]

/-- An extent that is found before the cut is found in the whole output, from the same line on, and
the further steps are searched in windows of which the second again outgrows the first. -/
theorem findExtent_append {name : String} {n : Nat} {ls : List String} {first last last' : Int}
    {e : Extent} (h : findExtent name n ls first last = some e) (hlast : last ≤ ls.length - 1)
    (hgrows : Outgrows (ls.length - 1) last last') (more : List String) :
    ∃ d, findExtent name n (ls ++ more) first last' = some d ∧ d.first = e.first ∧
      (e.last : Int) ≤ ls.length - 1 ∧ Outgrows (ls.length - 1) e.last d.last := by
  unfold findExtent at h ⊢
  dsimp only at h ⊢
  obtain ⟨ms, hwindow, hsame⟩ := window_append hlast hgrows more first.toNat
  have hbegin := first_of_extentFrom h
  have hend := last_of_extentFrom h
  rw [List.length_take, List.length_drop] at hbegin hend
  obtain ⟨d, hd, hfirst, hclosed⟩ := extentFrom_append_of_some h ms
  refine ⟨d, hwindow ▸ hd, hfirst, by omega, ?_⟩
  by_cases hlonger : last' = last
  · -- The windows are the same, and so are the extents.
    rw [hsame hlonger, List.append_nil, h] at hd
    obtain rfl := Option.some.inj hd
    exact Or.inl rfl
  · obtain ⟨hcut, hle⟩ := hgrows.resolve_left hlonger
    rcases hclosed with hclosed | ⟨hopen, hbehind⟩
    · exact Or.inl (congrArg Nat.cast hclosed)
    · rw [List.length_take, List.length_drop] at hopen
      exact Or.inr ⟨by omega, by omega⟩

/-! ## Paths -/

/-- Every step of the path is found in the lines. -/
def AllFound (path : List Step) (ls : List String) : Prop :=
  (trail path ls).length = path.length

instance (path : List Step) (ls : List String) : Decidable (AllFound path ls) :=
  inferInstanceAs (Decidable (_ = _))

/-- Steps that are all found before the cut are found on the same lines in the whole output. -/
theorem first_trailIn_append {ls : List String} {path : List Step} {first last last' : Int}
    (hfound : (trailIn ls path first last).length = path.length) (hlast : last ≤ ls.length - 1)
    (hgrows : Outgrows (ls.length - 1) last last') (more : List String) :
    (trailIn (ls ++ more) path first last').map Extent.first =
      (trailIn ls path first last).map Extent.first := by
  induction path generalizing first last last' with
  | nil => rfl
  | cons step path ih =>
    unfold trailIn at hfound ⊢
    cases he : findExtent step.name step.index ls first last with
    | none =>
      rw [he] at hfound
      exact absurd hfound (by simp)
    | some e =>
      rw [he, List.length_cons, List.length_cons, Nat.add_right_cancel_iff] at hfound
      obtain ⟨d, hd, hfirst, hwithin, hagain⟩ := findExtent_append he hlast hgrows more
      rw [hd]
      dsimp only
      rw [List.map_cons, List.map_cons, hfirst, ih hfound hwithin hagain]

/-- Steps that are all found in some lines are found on the same lines when further ones follow. -/
theorem first_trail_append {path : List Step} {ls : List String} (h : AllFound path ls)
    (more : List String) :
    (trail path (ls ++ more)).map Extent.first = (trail path ls).map Extent.first := by
  refine first_trailIn_append h (Int.le_refl _) (Or.inr ⟨rfl, ?_⟩) more
  rw [List.length_append]
  omega

/-- A path all of whose steps are found in some lines is resolved to the same line when further
lines follow, and each of its steps is found on the same line as before. -/
theorem resolve_append {path : String} {ss : List Step} (hsteps : steps path = .ok ss)
    {ls : List String} (hfound : AllFound ss ls) (more : List String) (fallback : Int) :
    (∃ line, resolve path ls fallback = .ok line ∧
      resolve path (ls ++ more) fallback = .ok line) ∧
      (trail ss (ls ++ more)).map Extent.first = (trail ss ls).map Extent.first := by
  have htrail := first_trail_append hfound more
  have hlocate : ∀ ms, locate? ss ms = ((trail ss ms).map Extent.first).getLast?.map (· + 1) := by
    intro ms
    rw [locate?, List.getLast?_map, Option.map_map]
    rfl
  refine ⟨⟨(locate? ss ls).elim fallback Int.ofNat, ?_, ?_⟩, htrail⟩
  · rw [resolve, hsteps]
    rfl
  · rw [resolve, hsteps, hlocate ls, ← htrail, ← hlocate]
    rfl

/-- The element `a` is not closed in the first three lines, and another one follows: the path to its
child is resolved to the third line before and after. -/
theorem resolve_append_unclosed :
    AllFound [⟨"r", 1⟩, ⟨"a", 1⟩, ⟨"b", 1⟩] ["<r>", "<a>", "<b/>"] ∧
      ∃ line, resolve "/r/a/b[1]" ["<r>", "<a>", "<b/>"] 0 = .ok line ∧ line = 3 ∧
        resolve "/r/a/b[1]" (["<r>", "<a>", "<b/>"] ++ ["</a>", "<a>", "<b/>", "</a>", "</r>"]) 0 =
          .ok line := by
  have hsteps : steps "/r/a/b[1]" = .ok [⟨"r", 1⟩, ⟨"a", 1⟩, ⟨"b", 1⟩] := by decide +kernel
  have hfound : AllFound [⟨"r", 1⟩, ⟨"a", 1⟩, ⟨"b", 1⟩] ["<r>", "<a>", "<b/>"] := by
    decide +kernel
  obtain ⟨⟨line, hcut, hwhole⟩, -⟩ :=
    resolve_append hsteps hfound ["</a>", "<a>", "<b/>", "</a>", "</r>"] 0
  have hthree : resolve "/r/a/b[1]" ["<r>", "<a>", "<b/>"] 0 = .ok 3 := by decide +kernel
  exact ⟨hfound, line, hcut, Except.ok.inj (hcut.symm.trans hthree), hwhole⟩

end StylesheetTrace.Location
