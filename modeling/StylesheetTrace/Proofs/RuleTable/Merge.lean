import Mathlib.Data.List.Nodup
import StylesheetTrace.RuleTable

/-!
# What a table gives for a rule

A table that is given further rules has, for each of them, the names that are given last, and for any
other rule those that it had (`get?_merge`). The rules of a table may themselves be collected in a
table first, and the names for each are the same (`get?_merge_ofList`).
-/

namespace StylesheetTrace.RuleTable

/-- The first rule gives its names, or else the others do. -/
theorem lookup_rule_cons (id k : String) (names : List String) (rules : List (String × List String)) :
    ((k, names) :: rules).lookup id = if id = k then some names else rules.lookup id := by
  by_cases h : id = k
  · simp [h]
  · simp [List.lookup_cons, beq_eq_false_iff_ne.mpr h, h]

/-- One rule is given new names, and the others keep theirs. -/
theorem get?_insert (t : RuleTable) (id k : String) (names : List String) :
    (t.insert id names).get? k = if k = id then some names else t.get? k := by
  obtain ⟨rules⟩ := t
  -- A rule that the table has keeps its place.
  have hplace : ∀ rs : List (String × List String),
      (rs.map fun r => if r.1 == id then (id, names) else r).lookup k =
        if k = id then (if rs.any (fun r => r.1 == id) then some names else none)
        else rs.lookup k := by
    intro rs
    induction rs with
    | nil => simp
    | cons r rs ih =>
      obtain ⟨j, ns⟩ := r
      rw [List.map_cons, List.any_cons]
      by_cases hj : j = id
      · subst hj
        rw [if_pos (beq_self_eq_true j), lookup_rule_cons, ih, lookup_rule_cons, beq_self_eq_true,
          Bool.true_or, if_pos rfl]
        split <;> rfl
      · have hne : (j == id) = false := beq_eq_false_iff_ne.mpr hj
        rw [if_neg (by simp [hne]), lookup_rule_cons, ih, lookup_rule_cons, hne, Bool.false_or]
        by_cases hk : k = id
        · rw [if_neg (hk ▸ Ne.symm hj), if_pos hk, if_pos hk]
        · rw [if_neg hk, if_neg hk]
  unfold insert get?
  split
  · rename_i hany
    rw [hplace, if_pos hany]
  · rename_i hany
    -- The table has no rule of this name, so that it is found at the end.
    by_cases hk : k = id
    · subst hk
      have hnone : rules.lookup k = none :=
        List.lookup_eq_none_iff.mpr fun p hp => bne_iff_ne.mpr fun heq =>
          hany (List.any_eq_true.mpr ⟨p, hp, beq_iff_eq.mpr heq.symm⟩)
      simp [List.lookup_append, hnone]
    · simp [List.lookup_append, lookup_rule_cons, hk]

/-- The names of a table with further rules are those given last, or else those of the table. -/
theorem get?_merge (t : RuleTable) (rules : List (String × List String)) (id : String) :
    (t.merge rules).get? id = (rules.reverse.lookup id).or (t.get? id) := by
  induction rules generalizing t with
  | nil => rfl
  | cons r rules ih =>
    obtain ⟨k, names⟩ := r
    rw [merge, List.foldl_cons, ← merge, ih, get?_insert, List.reverse_cons, List.lookup_append]
    by_cases hk : id = k <;> cases rules.reverse.lookup id <;> simp [lookup_rule_cons, hk]

/-! ## Tables of distinct rules -/

/-- The rules of the table are distinct. -/
def Distinct (t : RuleTable) : Prop := (t.rules.map Prod.fst).Nodup

/-- A table stays one of distinct rules when one is given names. -/
theorem Distinct.insert {t : RuleTable} (h : t.Distinct) (id : String) (names : List String) :
    (t.insert id names).Distinct := by
  unfold Distinct at h ⊢
  unfold RuleTable.insert
  split
  · have hsame : (t.rules.map fun r => if r.1 == id then (id, names) else r).map Prod.fst =
        t.rules.map Prod.fst := by
      rw [List.map_map]
      refine List.map_congr_left fun r _ => ?_
      simp only [Function.comp_apply]
      split
      · rename_i hr
        exact (beq_iff_eq.mp hr).symm
      · rfl
    rw [hsame]
    exact h
  · rename_i hany
    rw [List.map_append, List.map_singleton]
    refine h.append (List.nodup_singleton id) (List.disjoint_singleton.mpr fun hmem => hany ?_)
    obtain ⟨r, hr, hid⟩ := List.mem_map.mp hmem
    exact List.any_eq_true.mpr ⟨r, hr, beq_iff_eq.mpr hid⟩

/-- A table stays one of distinct rules when it is given further ones. -/
theorem Distinct.merge {t : RuleTable} (h : t.Distinct) (rules : List (String × List String)) :
    (t.merge rules).Distinct := by
  induction rules generalizing t with
  | nil => exact h
  | cons r rules ih => exact ih (h.insert r.1 r.2)

/-- What is found among distinct rules is what is there. -/
theorem lookup_eq_some_iff_mem {rules : List (String × List String)}
    (h : (rules.map Prod.fst).Nodup) {id : String} {names : List String} :
    rules.lookup id = some names ↔ (id, names) ∈ rules := by
  induction rules with
  | nil => simp
  | cons r rules ih =>
    obtain ⟨k, ns⟩ := r
    rw [List.map_cons, List.nodup_cons] at h
    rw [lookup_rule_cons, List.mem_cons, Prod.mk.injEq]
    by_cases hk : id = k
    · subst hk
      have habsent : (id, names) ∉ rules := fun hmem => h.1 (List.mem_map.mpr ⟨_, hmem, rfl⟩)
      simp [habsent, eq_comm]
    · simp [hk, ih h.2]

/-- Among the rules of a table of distinct ones, the last of a name is the first. -/
theorem Distinct.lookup_reverse {t : RuleTable} (h : t.Distinct) (id : String) :
    t.rules.reverse.lookup id = t.get? id := by
  have hreverse : (t.rules.reverse.map Prod.fst).Nodup := by
    rw [List.map_reverse]
    exact List.nodup_reverse.mpr h
  refine Option.ext fun names => ?_
  rw [get?, lookup_eq_some_iff_mem hreverse, lookup_eq_some_iff_mem h, List.mem_reverse]

/-- Further rules may be collected in a table before they are given. -/
theorem get?_merge_ofList (t : RuleTable) (rules : List (String × List String)) (id : String) :
    (t.merge (ofList rules).rules).get? id = (rules.reverse.lookup id).or (t.get? id) := by
  have hdistinct : (ofList rules).Distinct := Distinct.merge (t := empty) List.nodup_nil rules
  calc
    (t.merge (ofList rules).rules).get? id
        = ((ofList rules).rules.reverse.lookup id).or (t.get? id) := get?_merge t _ id
    _ = ((ofList rules).get? id).or (t.get? id) := by rw [hdistinct.lookup_reverse]
    _ = ((rules.reverse.lookup id).or none).or (t.get? id) := by rw [ofList, get?_merge]; rfl
    _ = (rules.reverse.lookup id).or (t.get? id) := by rw [Option.or_none]

/-- The names that a table with further rules gives for one. The empty identifier is taken for a
missing one. -/
theorem targets_merge_ofList (t : RuleTable) (rules : List (String × List String)) (id : String) :
    (t.merge (ofList rules).rules).targets (some id) =
      if id = "" then [] else (rules.reverse.lookup id).getD (t.targets (some id)) := by
  simp only [targets, String.isEmpty_iff, get?_merge_ofList]
  split
  · rfl
  · cases rules.reverse.lookup id <;> rfl

end StylesheetTrace.RuleTable
