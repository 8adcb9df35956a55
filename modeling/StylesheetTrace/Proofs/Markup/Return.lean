import StylesheetTrace.Proofs.Markup.Tag

/-!
# Tags before a carriage return

A line that was cut off at its line feed alone may end with a carriage return. The readers of tags
leave it where it is (`Leaves`): it stands in no name, and where a name ends at the end of the line,
it ends before a carriage return too, which is a blank. So a line has as many tags with it as
without (`count_concat`).
-/

namespace StylesheetTrace.Markup

open StylesheetTrace.Text

/-- The reader reads the same before the character `d` at the end of a text, and leaves it there. -/
def Leaves {α : Type} (d : Char) (r : Reader α) : Prop :=
  ∀ s, r (s ++ [d]) = (r s).map fun found => (found.1, found.2 ++ [d])

/-! ## Counting -/

/-- A text has as many forms with a character at its end that is left there. -/
theorem count_concat {α : Type} {r : Reader α} {d : Char} (hr : Reduces r) (hd : Leaves d r)
    (s : List Char) : count r (s ++ [d]) = count r s := by
  have hlast : r [d] = none := by
    have h := hd []
    rwa [hr.nil_eq_none] at h
  -- By induction on the length: a form may take more than one character of the text.
  generalize hn : s.length = n
  induction n using Nat.strongRecOn generalizing s with
  | ind n ih =>
    unfold count at ih ⊢
    cases h : r s with
    | some found =>
      obtain ⟨a, rest⟩ := found
      have hmore : r (s ++ [d]) = some (a, rest ++ [d]) := by rw [hd s, h]; rfl
      rw [collect_of_some hr h, collect_of_some hr hmore, List.length_cons, List.length_cons,
        ih rest.length (hn ▸ hr s a rest h) rest rfl]
    | none =>
      cases s with
      | nil =>
        rw [List.nil_append, collect_cons_of_none hlast]
      | cons c s =>
        have hmore : r (c :: (s ++ [d])) = none := by
          have hnone := hd (c :: s)
          rwa [h] at hnone
        rw [List.cons_append, collect_cons_of_none h, collect_cons_of_none hmore,
          ih s.length (hn ▸ Nat.lt_succ_self s.length) s rfl]

/-- A text has a form exactly when it has one with a character at its end that is left there. -/
theorem hasForm_concat {α : Type} {r : Reader α} {d : Char} (hr : Reduces r) (hd : Leaves d r)
    (s : List Char) : hasForm r (s ++ [d]) = hasForm r s := by
  rw [hasForm_eq_decide hr, hasForm_eq_decide hr, count_concat hr hd]

/-- A reader whose forms begin with one character leaves another one if it does so behind that. -/
theorem leaves_of_head {α : Type} {r : Reader α} {c d : Char} (hcd : d ≠ c) (hnil : r [] = none)
    (hne : ∀ b s, b ≠ c → r (b :: s) = none) (h : Leaves d fun s => r (c :: s)) : Leaves d r := by
  intro s
  cases s with
  | nil =>
    rw [List.nil_append, hne d [] hcd, hnil]
    rfl
  | cons b s =>
    by_cases hb : b = c
    · subst hb
      exact h s
    · rw [List.cons_append, hne b _ hb, hne b _ hb]
      rfl

/-! ## Names and the inside of tags -/

/-- A word in which a character does not stand is read the same before it. -/
theorem after?_concat {w : List Char} {d : Char} (hd : d ∉ w) (s : List Char) :
    after? w (s ++ [d]) = (after? w s).map (· ++ [d]) := by
  cases h : after? w s with
  | some rest =>
    rw [after?_eq_some.mp h, List.append_assoc, after?_append]
    rfl
  | none =>
    rw [Option.map_none, Option.eq_none_iff_forall_not_mem]
    intro rest hrest
    obtain ⟨b, rfl, -⟩ := append_cons_eq_append hd (after?_eq_some.mp hrest)
    exact absurd (h.symm.trans (after?_append w b)) (by simp)

/-- A name ends at the end of a line and before a carriage return alike. -/
theorem endsName_concat (s : List Char) : endsName (s ++ ['\r']) = endsName s := by
  cases s <;> rfl

/-- The inside of a tag is the same before a carriage return. -/
theorem tagInside?_concat (s : List Char) :
    tagInside? (s ++ ['\r']) = (tagInside? s).map fun found => (found.1, found.2 ++ ['\r']) := by
  by_cases h : '>' ∈ s
  · obtain ⟨t, u, rfl, ht⟩ := List.eq_append_cons_of_mem h
    rw [List.append_assoc, List.cons_append, tagInside?_append ht, tagInside?_append ht]
    rfl
  · have hnone : ∀ t, '>' ∉ t → tagInside? t = none := by
      intro t ht
      have hall : ∀ c ∈ t, (c != '>') = true := fun c hc =>
        bne_iff_ne.mpr fun heq => ht (heq ▸ hc)
      rw [tagInside?, List.dropWhile_eq_nil_iff.mpr hall]
    rw [hnone s h, hnone _ (List.not_mem_append h (by decide))]
    rfl

section

variable {ok : Char → Bool} {n : List Char} (hok : ok '\r' = false) (hn : '\r' ∉ n)
include hok

/-- A prefix is skipped the same before a carriage return. -/
theorem afterPrefix?_concat (s : List Char) :
    afterPrefix? ok (s ++ ['\r']) = (afterPrefix? ok s).map (· ++ ['\r']) := by
  have hstop : ∀ c ∈ ['\r'].head?, ok c = false := head?_cons_eq_false hok []
  unfold afterPrefix?
  rw [dropWhile_append_of_head hstop, takeWhile_append_of_head hstop]
  cases s.dropWhile ok with
  | nil => rfl
  | cons c t =>
    by_cases hc : c = ':'
    · subst hc
      by_cases hempty : (s.takeWhile ok).isEmpty = true <;> simp [hempty]
    · rw [List.cons_append]
      split
      · rename_i heq
        exact absurd (List.cons.inj heq).1 hc
      · split
        · rename_i heq
          exact absurd (List.cons.inj heq).1 hc
        · rfl

include hn

/-- Behind a name the carriage return is left by what leaves it next. -/
theorem leaves_qualified {α : Type} {next : Reader α} (hnext : Leaves '\r' next) :
    Leaves '\r' (qualified ok n next) := by
  intro s
  have hname : ∀ t, (after? n (t ++ ['\r'])).bind next =
      ((after? n t).bind next).map fun found => (found.1, found.2 ++ ['\r']) := by
    intro t
    rw [after?_concat hn]
    cases after? n t with
    | none => rfl
    | some rest => exact hnext rest
  have hqualified : ((afterPrefix? ok (s ++ ['\r'])).bind fun rest => (after? n rest).bind next) =
      ((afterPrefix? ok s).bind fun rest => (after? n rest).bind next).map
        fun found => (found.1, found.2 ++ ['\r']) := by
    rw [afterPrefix?_concat hok]
    cases afterPrefix? ok s with
    | none => rfl
    | some rest => exact hname rest
  unfold qualified
  rw [hqualified, hname]
  cases (afterPrefix? ok s).bind fun rest => (after? n rest).bind next <;> rfl

/-! ## Tags -/

/-- The beginning of a tag is read the same before a carriage return. -/
theorem leaves_opening : Leaves '\r' (opening? ok n) := by
  have hnext : Leaves '\r' fun s => if endsName s then some ((), s) else none := by
    intro s
    simp only [endsName_concat]
    split <;> rfl
  exact leaves_of_head (by decide) rfl (fun c s hc => opening?_of_ne hc s)
    (leaves_qualified hok hn hnext)

/-- A tag that closes its element at once is read the same before a carriage return. -/
theorem leaves_selfClosing : Leaves '\r' (selfClosing? ok n) := by
  have hclose : ∀ s, afterSelfClose? (s ++ ['\r']) = (afterSelfClose? s).map (· ++ ['\r']) := by
    intro s
    unfold afterSelfClose?
    rw [tagInside?_concat]
    cases tagInside? s with
    | none => rfl
    | some found =>
      simp only [Option.map_some, Option.bind_some]
      split <;> rfl
  have hnext : Leaves '\r' fun s =>
      if endsName s then (afterSelfClose? s).map fun rest => ((), rest) else none := by
    intro s
    simp only [endsName_concat, hclose, Option.map_map]
    split
    · rw [Option.map_map]
      rfl
    · rfl
  exact leaves_of_head (by decide) rfl (fun c s hc => selfClosing?_of_ne hc s)
    (leaves_qualified hok hn hnext)

/-- An end tag is read the same before a carriage return. -/
theorem leaves_closing : Leaves '\r' (closing? ok n) := by
  have hend : ∀ s, afterEnd? (s ++ ['\r']) = (afterEnd? s).map (· ++ ['\r']) := by
    intro s
    unfold afterEnd?
    rw [List.dropWhile_append]
    split
    · -- Where only blanks are left, the carriage return is one more.
      rename_i hblank
      rw [List.isEmpty_iff.mp hblank]
      rfl
    · exact after?_concat (by decide) _
  have hnext : Leaves '\r' fun s => (afterEnd? s).map fun rest => ((), rest) := by
    intro s
    simp only [hend, Option.map_map]
    rfl
  have hslash : ∀ c s, c ≠ '/' → closing? ok n ('<' :: c :: s) = none := by
    intro c s hc
    unfold closing?
    split
    · rename_i heq
      exact absurd (List.cons.inj (List.cons.inj heq).2).1 hc
    · rfl
  exact leaves_of_head (by decide) rfl (fun c s hc => closing?_of_ne hc s)
    (leaves_of_head (by decide) rfl hslash (leaves_qualified hok hn hnext))

end

end StylesheetTrace.Markup
