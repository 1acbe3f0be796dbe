import EndpointTypings.Text.Pieces
import Mathlib.Data.List.Infix
import Mathlib.Data.Nat.Find

/-!
# Where a word first stands in a text

A word may stand in a text at several places; `Text.FirstAt` tells the first of them. Behind a text
a word stands first exactly if it stands neither in that text nor across its end
(`Text.firstAt_append_iff`), so that a text splits at the first place of a word in one way only
(`Text.append_word_inj`). A character that is not in the word keeps the two sides of it apart
(`Text.infix_append_cons_iff`): no word stands across it.
-/

namespace EndpointTypings.Text

variable {word text before before' after after' : List Char} {place other : ℕ} {c : Char}

/-- A word occurs in a text exactly if it is a part of it. -/
theorem occurs_iff : occurs word text = true ↔ word <:+: text := by
  induction text with
  | nil => simp [occurs]
  | cons c cs ih =>
    rw [occurs, Bool.or_eq_true, ih, List.isPrefixOf_iff_prefix, List.infix_cons_iff]

/-- The first place where a word stands in a text: it stands there, behind that many characters,
and at no earlier place. -/
def FirstAt (word text : List Char) (place : ℕ) : Prop :=
  word <+: text.drop place ∧ ∀ earlier < place, ¬ word <+: text.drop earlier

/-- The first place of a word is not behind another place of it. -/
theorem FirstAt.le (h : FirstAt word text place) (hother : word <+: text.drop other) :
    place ≤ other :=
  Nat.le_of_not_lt fun hlt => h.2 other hlt hother

/-- A word has at most one first place. -/
theorem FirstAt.unique (h : FirstAt word text place) (h' : FirstAt word text other) :
    place = other :=
  Nat.le_antisymm (h.le h'.1) (h'.le h.1)

/-- A word that stands in a text has a first place there. -/
theorem exists_firstAt (h : word <:+: text) : ∃ place, FirstAt word text place := by
  obtain ⟨rest, hword, hrest⟩ := List.infix_iff_prefix_suffix.1 h
  have hsome : ∃ place, word <+: text.drop place :=
    ⟨text.length - rest.length, List.suffix_iff_eq_drop.1 hrest ▸ hword⟩
  classical
  exact ⟨Nat.find hsome, Nat.find_spec hsome, fun earlier hlt => Nat.find_min hsome hlt⟩

/-- A word behind a text stands there first, unless it stands in that text or across its end. -/
theorem firstAt_append (h : ¬ word <:+: before ++ word.dropLast) (after : List Char) :
    FirstAt word (before ++ word ++ after) before.length := by
  refine ⟨?_, fun earlier hlt hword => h ?_⟩
  · rw [List.append_assoc, List.drop_left]
    exact List.prefix_append word after
  · -- a word that starts earlier ends before the last character of the one behind the text
    have hpart : before ++ word.dropLast <+: before ++ word ++ after := by
      rw [List.append_assoc, List.prefix_append_right_inj]
      exact List.IsPrefix.trans (List.dropLast_prefix word) (List.prefix_append word after)
    have hdrop :
        (before ++ word.dropLast).drop earlier <+: (before ++ word ++ after).drop earlier :=
      List.IsPrefix.drop hpart earlier
    have hlength : word.length ≤ ((before ++ word.dropLast).drop earlier).length := by
      rw [List.length_drop, List.length_append, List.length_dropLast]
      omega
    have hwithin := List.prefix_of_prefix_length_le hword hdrop hlength
    exact hwithin.isInfix.trans (List.drop_suffix earlier _).isInfix

/-- A text splits in one way only at the first place of a word. -/
theorem append_word_inj (h : ¬ word <:+: before ++ word.dropLast)
    (h' : ¬ word <:+: before' ++ word.dropLast)
    (heq : before ++ word ++ after = before' ++ word ++ after') :
    before = before' ∧ after = after' := by
  have hfirst := firstAt_append h after
  rw [heq] at hfirst
  have hlength : before.length = before'.length := hfirst.unique (firstAt_append h' after')
  rw [List.append_assoc, List.append_assoc] at heq
  obtain ⟨hbefore, hrest⟩ := List.append_inj heq hlength
  exact ⟨hbefore, List.append_cancel_left hrest⟩

/-- A word without a character stands on one side of that character. -/
theorem infix_append_cons_iff (hc : c ∉ word) :
    word <:+: before ++ c :: after ↔ word <:+: before ∨ word <:+: after := by
  constructor
  · intro h
    rcases List.infix_append_iff.1 h with hb | ha | ⟨start, rest, rfl, hstart, hrest⟩
    · exact .inl hb
    · rcases List.infix_cons_iff.1 ha with hinit | ha
      · -- the word is empty, since it does not start with the character
        rcases List.prefix_cons_iff.1 hinit with rfl | ⟨rest, rfl, -⟩
        · exact .inl List.nil_infix
        · exact absurd List.mem_cons_self hc
      · exact .inr ha
    · rcases List.prefix_cons_iff.1 hrest with rfl | ⟨rest, rfl, -⟩
      · rw [List.append_nil]
        exact .inl hstart.isInfix
      · exact absurd (List.mem_append_right start List.mem_cons_self) hc
  · rintro (hb | ha)
    · exact hb.trans (List.prefix_append before _).isInfix
    · exact ha.trans ((List.suffix_cons c after).trans (List.suffix_append before _)).isInfix

/-- A word behind a text stands there first exactly if it stands neither in that text nor across its
end. -/
theorem firstAt_append_iff (hword : word ≠ []) :
    FirstAt word (before ++ word ++ after) before.length ↔ ¬ word <:+: before ++ word.dropLast := by
  constructor
  · rintro ⟨-, hfirst⟩ ⟨start, rest, hin⟩
    have hpos : 0 < word.length := List.length_pos_of_ne_nil hword
    have hlength := congrArg List.length hin
    simp only [List.length_append, List.length_dropLast] at hlength
    -- the word would stand earlier, since it ends before its last character behind the text
    have hlast : word = word.dropLast ++ [word.getLast hword] :=
      (List.dropLast_append_getLast hword).symm
    have htext : before ++ word ++ after
        = start ++ (word ++ (rest ++ word.getLast hword :: after)) := by
      calc before ++ word ++ after
          = (before ++ word.dropLast) ++ word.getLast hword :: after := by
            rw [List.append_assoc, List.append_assoc]
            conv_lhs => rw [hlast]
            rw [List.append_assoc, List.singleton_append]
        _ = start ++ (word ++ (rest ++ word.getLast hword :: after)) := by
            rw [← hin]
            simp only [List.append_assoc]
    refine hfirst start.length (by omega) ?_
    rw [htext, List.drop_left]
    exact List.prefix_append _ _
  · exact fun h => firstAt_append h after

/-- A text splits at the first place of a word. -/
theorem FirstAt.exists_split (h : FirstAt word text place) (hword : word ≠ []) :
    ∃ before after, text = before ++ word ++ after ∧ before.length = place ∧
      ¬ word <:+: before ++ word.dropLast := by
  obtain ⟨after, hafter⟩ := h.1
  have hplace : place ≤ text.length := by
    by_contra hlt
    rw [List.drop_eq_nil_of_le (by omega)] at hafter
    exact hword (List.append_eq_nil_iff.1 hafter).1
  have hlength : (text.take place).length = place := by
    rw [List.length_take]
    omega
  have htext : text = text.take place ++ word ++ after := by
    rw [List.append_assoc, hafter, List.take_append_drop]
  have hfirst : FirstAt word (text.take place ++ word ++ after) (text.take place).length := by
    rw [← htext, hlength]
    exact h
  exact ⟨text.take place, after, htext, hlength, (firstAt_append_iff hword).1 hfirst⟩

/-- More text behind does not change the first place of a word. -/
theorem FirstAt.append (h : FirstAt word text place) (hword : word ≠ []) (after : List Char) :
    FirstAt word (text ++ after) place := by
  obtain ⟨before, rest, rfl, rfl, hfirst⟩ := h.exists_split hword
  rw [List.append_assoc _ rest]
  exact firstAt_append hfirst _

/-- A text before, ending with a character that is not in the word, moves the first place of a word
that it does not hold. -/
theorem FirstAt.behind (h : FirstAt word text place) (hword : word ≠ []) (hc : c ∉ word)
    (hbefore : ¬ word <:+: before) :
    FirstAt word (before ++ c :: text) (before.length + 1 + place) := by
  obtain ⟨start, rest, rfl, rfl, hfirst⟩ := h.exists_split hword
  have hlength : before.length + 1 + start.length = (before ++ c :: start).length := by
    rw [List.length_append, List.length_cons]
    omega
  have htext : before ++ c :: (start ++ word ++ rest) = before ++ c :: start ++ word ++ rest := by
    simp only [List.append_assoc, List.cons_append]
  rw [hlength, htext]
  refine firstAt_append ?_ rest
  rw [List.append_assoc, List.cons_append, infix_append_cons_iff hc]
  exact not_or.2 ⟨hbefore, hfirst⟩

end EndpointTypings.Text
