import StylesheetTrace.Proofs.Session.Liveness

/-!
# What the sessions hold

A session that is looked up counts as used, and one that has expired is dropped. Neither is a change
of what the live sessions hold (`SameContents`). That a session stays live when it is used needs the
invariant that none was used later than now, which every action preserves (`Valid.step`): else a use
would bring its expiry forward.
-/

namespace StylesheetTrace.Sessions

/-- What a session holds, whenever it was used: its runs, the time of its creation, and what its
client noted. -/
def contents (x : Session) : RunStore × Int × List (String × String) :=
  (x.store, x.createdAt, x.metadata)

/-- At the time `now` the same sessions are live in both, and they hold the same. -/
structure SameContents (now : Int) (s s' : Sessions) : Prop where
  /-- Sessions expire after the same time. -/
  timeToLive : s'.timeToLive = s.timeToLive
  /-- A session that is live in one is live in the other, and holds the same. -/
  live : ∀ id, (s'.live? now id).map contents = (s.live? now id).map contents
  /-- A session that differs in the second was just used, and one that is stored in the first only
  has expired. -/
  stored : ∀ id, s'.find? id = s.find? id ∨
    (∃ x, s.live? now id = some x ∧ s'.find? id = some { x with lastUsed := now }) ∨
    s.live? now id = none ∧ s'.find? id = none

/-- The sessions are in order at the time `now`. -/
structure Valid (now : Int) (s : Sessions) : Prop where
  /-- No two sessions have one identifier. -/
  distinct : s.Distinct
  /-- No session was used later than now. -/
  lastUsed : ∀ id x, s.find? id = some x → x.lastUsed ≤ now

section

variable {s s' : Sessions} {now : Int}

/-- No sessions are valid at any time. -/
theorem valid_ofTimeToLive (ttl now : Int) : (ofTimeToLive ttl).Valid now where
  distinct := distinct_ofTimeToLive ttl
  lastUsed _ _ h := absurd h.symm (Option.some_ne_none _)

/-- Valid sessions are so later. -/
theorem Valid.mono (h : s.Valid now) {later : Int} (hlater : now ≤ later) : s.Valid later where
  distinct := h.distinct
  lastUsed id x hx := Int.le_trans (h.lastUsed id x hx) hlater

/-- An action keeps the sessions valid. -/
theorem Valid.step (h : s.Valid now) (a : Action) : (s.step now a).2.Valid now where
  distinct := h.distinct.step now a
  lastUsed id y hy := by
    have hnow : now ≤ now := Int.le_refl now
    rw [find?_step h.distinct] at hy
    unfold foundAfter at hy
    cases a with
    | create k metadata =>
      dsimp only at hy
      split at hy
      · rw [← Option.some.inj hy]
        exact hnow
      · exact h.lastUsed id y hy
    | use k work =>
      dsimp only at hy
      split at hy
      · obtain ⟨x, -, rfl⟩ := Option.map_eq_some_iff.mp hy
        exact hnow
      · exact h.lastUsed id y hy
    | close k =>
      dsimp only at hy
      split at hy
      · exact absurd hy.symm (Option.some_ne_none y)
      · exact h.lastUsed id y hy
    | useDefault work =>
      dsimp only at hy
      split at hy
      · rw [← Option.some.inj hy]
        exact hnow
      · exact h.lastUsed id y hy
    | purge => exact h.lastUsed id y (live?_eq_some.mp hy).1
    | list => exact h.lastUsed id y hy
    | count => exact h.lastUsed id y hy

/-- A session that was used is live, where it was live before. -/
theorem Valid.live?_of_used (h : s.Valid now) {id : String} {x : Session}
    (hx : s.live? now id = some x) (httl : s'.timeToLive = s.timeToLive)
    {y : Session} (hy : s'.find? id = some y) (hused : y.lastUsed = now) :
    s'.live? now id = some y := by
  obtain ⟨hfound, hlive⟩ := live?_eq_some.mp hx
  have hlast : x.lastUsed ≤ now := h.lastUsed id x hfound
  exact live?_eq_some.mpr ⟨hy, by omega⟩

/-- The live sessions hold the same, if all that differs are sessions that were just used and
expired ones that are gone. -/
theorem Valid.sameContents (h : s.Valid now) (httl : s'.timeToLive = s.timeToLive)
    (hstored : ∀ id, s'.find? id = s.find? id ∨
      (∃ x, s.live? now id = some x ∧ s'.find? id = some { x with lastUsed := now }) ∨
      s.live? now id = none ∧ s'.find? id = none) :
    SameContents now s s' where
  timeToLive := httl
  stored := hstored
  live id := by
    rcases hstored id with hsame | ⟨x, hx, hused⟩ | ⟨hnone, hgone⟩
    · rw [live?_congr hsame httl]
    · rw [h.live?_of_used hx httl hused rfl, hx]
      rfl
    · rw [hnone, live?, hgone]
      rfl

/-- Nothing differs between sessions and themselves. -/
theorem Valid.sameContents_self (h : s.Valid now) : SameContents now s s :=
  h.sameContents rfl fun _ => Or.inl rfl

/-- To look a session up changes nothing of what the sessions hold. -/
theorem Valid.sameContents_look (h : s.Valid now) (id : String) :
    SameContents now s (s.step now (.use id fun store => store)).2 := by
  refine h.sameContents (timeToLive_step ..) fun k => ?_
  rw [find?_step h.distinct, foundAfter]
  by_cases hk : k = id
  · rw [if_pos hk, hk]
    cases hx : s.live? now id with
    | none => exact Or.inr (Or.inr ⟨rfl, rfl⟩)
    | some x => exact Or.inr (Or.inl ⟨x, rfl, rfl⟩)
  · rw [if_neg hk]
    exact Or.inl rfl

/-- To open a session under a new identifier changes what the sessions hold, unless it expires at
once. -/
theorem Valid.not_sameContents_create (h : s.Valid now) {id : String} (hnew : id ∉ s.ids)
    (httl : 0 ≤ s.timeToLive) (metadata : List (String × String)) :
    ¬ SameContents now s (s.step now (.create id metadata)).2 := by
  intro hsame
  have hfound : (s.step now (.create id metadata)).2.find? id = some (fresh id now metadata) :=
    (find?_step h.distinct now _ id).trans (if_pos rfl)
  have hlive : (s.step now (.create id metadata)).2.live? now id = some (fresh id now metadata) := by
    refine live?_eq_some.mpr ⟨hfound, ?_⟩
    rw [timeToLive_step]
    show now - now ≤ s.timeToLive
    omega
  have hbefore : s.live? now id = none := by
    rw [live?, find?_eq_none.mpr hnew]
    rfl
  have hcontents := hsame.live id
  rw [hlive, hbefore] at hcontents
  exact absurd hcontents (Option.some_ne_none _)

/-- To put another store into a live session changes what the sessions hold. -/
theorem Valid.not_sameContents_use (h : s.Valid now) {id : String} {x : Session}
    (hx : s.live? now id = some x) {store : RunStore} (hstore : store ≠ x.store) :
    ¬ SameContents now s (s.step now (.use id fun _ => store)).2 := by
  intro hsame
  have hfound : (s.step now (.use id fun _ => store)).2.find? id =
      some (used x now fun _ => store) := by
    rw [find?_step h.distinct, foundAfter, if_pos rfl, hx]
    rfl
  have hlive := h.live?_of_used hx (timeToLive_step ..) hfound rfl
  have hcontents := hsame.live id
  rw [hlive, hx] at hcontents
  exact hstore (congrArg Prod.fst (Option.some.inj hcontents))

end

end StylesheetTrace.Sessions
