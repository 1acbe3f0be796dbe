import EndpointTypings.Proofs.Json.Numbers
import Mathlib.Tactic.SplitIfs

/-!
# What stands between brackets

Items and members are read by the same kind of loop: behind the opening bracket comes the closing
one or a first item, and behind every item comes the closing bracket or a comma with the next item.
`IsLoop` says this of a loop once, whatever the items are. `IsLoop.content_sound` and
`IsLoop.content_append` conclude that the loop takes what the grammar allows between brackets and
all of it, if the reader of the items does so for the items (`Reads`).

The loop counts its steps. Every item but the first costs one and has a comma before it, so a text
shorter than the number of steps is passed before the steps are.
-/

namespace EndpointTypings.Json

variable {α : Type} {s t rest : List Char} {c close : Char}

/-! ## White space -/

/-- White space consists of the characters that are skipped. -/
theorem isBlank_iff : IsBlank s ↔ ∀ c ∈ s, isSpace c = true := by
  simp [IsBlank, isSpace, or_assoc]

/-- Two pieces of white space make one. -/
theorem IsBlank.append (hs : IsBlank s) (ht : IsBlank t) : IsBlank (s ++ t) :=
  fun c hc => (List.mem_append.1 hc).elim (hs c) (ht c)

/-- What is skipped is white space. -/
theorem exists_blank (s : List Char) : ∃ before, IsBlank before ∧ s = before ++ skipSpace s :=
  ⟨s.takeWhile isSpace, isBlank_iff.2 fun _ => List.mem_takeWhile_imp,
    List.takeWhile_append_dropWhile.symm⟩

/-- White space at the start is skipped. -/
theorem skipSpace_append (hs : IsBlank s) : skipSpace (s ++ t) = skipSpace t :=
  List.dropWhile_append_of_pos (isBlank_iff.1 hs)

/-- Nothing is skipped before a character that is not white space. -/
theorem skipSpace_cons (hc : isSpace c = false) : skipSpace (c :: s) = c :: s := by
  simp [skipSpace, hc]

/-- After white space, nothing goes on with a number that would not without it. -/
theorem NoNumberNext.blank_append (hs : IsBlank s) (hr : NoNumberNext rest) :
    NoNumberNext (s ++ rest) := by
  cases s with
  | nil => exact hr
  | cons d s =>
    rintro c hc
    obtain rfl : d = c := by simpa using hc
    rcases hs d List.mem_cons_self with rfl | rfl | rfl | rfl <;> decide

/-! ## Readers of items -/

/-- A text that starts like an item: with no white space and no closing bracket. -/
def StartsItem (s : List Char) : Prop :=
  ∃ c rest, s = c :: rest ∧ isSpace c = false ∧ c ≠ ']' ∧ c ≠ '\x7d'

/-- A reader takes the items of a grammar and, if they are shorter than a bound, all of them. -/
structure Reads (reader : List Char → Except Fault (α × List Char))
    (item : List Char → α → Prop) (bound : Nat) : Prop where
  /-- What is read is an item, perhaps with white space before it. -/
  sound : ∀ {s rest : List Char} {a : α}, reader s = .ok (a, rest) →
    ∃ before t, s = before ++ (t ++ rest) ∧ IsBlank before ∧ item t a
  /-- An item is read if nothing follows that could go on with it. -/
  append : ∀ {t rest : List Char} {a : α}, item t a → t.length < bound → NoNumberNext rest →
    reader (t ++ rest) = .ok (a, rest)
  /-- An item cannot be taken for white space or a closing bracket. -/
  starts : ∀ {t : List Char} {a : α}, item t a → StartsItem t

/-- An item is next, and a loop with the given number of steps and items goes on behind it. -/
def Begins (close : Char) (reader : List Char → Except Fault (α × List Char))
    (loop : Nat → List α → List Char → Except Fault (List α × List Char)) (steps : Nat)
    (items : List α) (s : List Char) (result : List α × List Char) : Prop :=
  ∃ c rest a rest', skipSpace s = c :: rest ∧ c ≠ close ∧ reader (c :: rest) = .ok (a, rest') ∧
    loop steps (a :: items) rest' = .ok result

/-- A closing bracket is next, and the items are complete. -/
def Closes (close : Char) (items : List α) (s : List Char) (result : List α × List Char) : Prop :=
  ∃ rest, skipSpace s = close :: rest ∧ result = (items.reverse, rest)

/-- A loop over the items that follow another item, up to the closing bracket. -/
structure IsLoop (close : Char) (reader : List Char → Except Fault (α × List Char))
    (loop : Nat → List α → List Char → Except Fault (List α × List Char)) : Prop where
  /-- The bracket closes an array or an object. -/
  isClose : close = ']' ∨ close = '\x7d'
  /-- Without steps there is no result. -/
  zero : ∀ {items : List α} {s : List Char} {result : List α × List Char},
    loop 0 items s ≠ .ok result
  /-- With a step left, the bracket comes, or a comma and an item. -/
  succ : ∀ {steps : Nat} {items : List α} {s : List Char} {result : List α × List Char},
    loop (steps + 1) items s = .ok result ↔ Closes close items s result ∨
      ∃ rest, skipSpace s = ',' :: rest ∧ Begins close reader loop steps items rest result

section Loops

variable {reader : List Char → Except Fault (α × List Char)} {item : List Char → α → Prop}
  {loop : Nat → List α → List Char → Except Fault (List α × List Char)} {bound : Nat}

/-- What a loop takes from its first item on is a sequence of items and a bracket. -/
theorem IsLoop.sequence_sound (hl : IsLoop close reader loop) (hr : Reads reader item bound)
    {steps : Nat} {items all : List α} (h : Begins close reader loop steps items s (all, rest)) :
    ∃ t as, s = t ++ close :: rest ∧ IsSequence item t as ∧ all = items.reverse ++ as := by
  -- the induction is on the steps, each of which takes a comma and an item
  induction steps generalizing items s with
  | zero =>
    obtain ⟨_, _, _, _, _, _, _, h⟩ := h
    exact absurd h hl.zero
  | succ steps ih =>
    obtain ⟨c, rest₁, a, rest₂, hs, -, ha, h⟩ := h
    obtain ⟨before, hb, hbefore⟩ := exists_blank s
    obtain ⟨before', t, ht, hb', hi⟩ := hr.sound ha
    obtain ⟨behind, ha, hbehind⟩ := exists_blank rest₂
    -- an item with what stands before and behind it
    have hpadded := IsPadded.mk (hb.append hb') hi ha
    have hsplit : s = (before ++ before' ++ (t ++ behind)) ++ skipSpace rest₂ := by
      rw [hbefore, hs, ht]
      simp only [List.append_assoc, ← hbehind]
    -- behind the item the loop ends or goes on with a comma
    rcases hl.succ.1 h with ⟨rest₃, hclose, hall⟩ | ⟨rest₃, hcomma, h⟩
    · obtain ⟨rfl, rfl⟩ := Prod.mk.inj hall
      rw [hclose] at hsplit
      exact ⟨_, [a], hsplit, .one hpadded, by simp⟩
    · obtain ⟨t', as, rfl, has, rfl⟩ := ih h
      rw [hcomma] at hsplit
      refine ⟨_, a :: as, ?_, .more hpadded has, by simp⟩
      rw [hsplit, List.append_assoc (before ++ before' ++ (t ++ behind)), List.cons_append]

/-- A padded item is taken, and the loop goes on with what follows it. -/
theorem Begins.of_padded (hc : close = ']' ∨ close = '\x7d') (hr : Reads reader item bound)
    {steps : Nat} {items : List α} {result : List α × List Char} {a : α} (hp : IsPadded item s a)
    (hs : s.length < bound) (hn : NoNumberNext rest)
    (hloop : ∀ behind, IsBlank behind → loop steps (a :: items) (behind ++ rest) = .ok result) :
    Begins close reader loop steps items (s ++ rest) result := by
  cases hp with
  | @mk before t behind _ hb hi ha =>
    obtain ⟨c, u, rfl, hspace, hne, hne'⟩ := hr.starts hi
    have hlength : (c :: u).length < bound := by
      simp only [List.length_append] at hs
      omega
    refine ⟨c, u ++ (behind ++ rest), a, behind ++ rest, ?_, ?_, ?_, hloop behind ha⟩
    · rw [List.append_assoc, skipSpace_append hb, List.append_assoc, List.cons_append,
        skipSpace_cons hspace]
    · rcases hc with rfl | rfl
      · exact hne
      · exact hne'
    · exact hr.append hi hlength (hn.blank_append ha)

/-- A sequence of items and a bracket are taken from the first item on. -/
theorem IsLoop.sequence_append (hl : IsLoop close reader loop) (hr : Reads reader item bound)
    {as : List α} (ht : IsSequence item t as) {steps : Nat} {items : List α}
    (hs : t.length < steps) (hb : t.length < bound) :
    Begins close reader loop steps items (t ++ close :: rest) (items.reverse ++ as, rest) := by
  -- the induction is on the sequence; its length keeps ahead of the steps and of the bound
  induction ht generalizing steps items with
  | @one s a hp =>
    obtain ⟨steps, rfl⟩ : ∃ n, steps = n + 1 := ⟨steps - 1, by omega⟩
    have hspace : isSpace close = false := by rcases hl.isClose with rfl | rfl <;> decide
    have hnext : NoNumberNext (close :: rest) := by
      rcases hl.isClose with rfl | rfl <;> simp [NoNumberNext]
    refine .of_padded hl.isClose hr hp hb hnext fun behind ha => hl.succ.2 (.inl ⟨rest, ?_, ?_⟩)
    · rw [skipSpace_append ha, skipSpace_cons hspace]
    · rw [List.reverse_cons]
  | @more s t a as hp ht ih =>
    obtain ⟨steps, rfl⟩ : ∃ n, steps = n + 1 := ⟨steps - 1, by omega⟩
    simp only [List.length_append, List.length_cons] at hs hb
    have hnext : NoNumberNext (',' :: (t ++ close :: rest)) := by simp [NoNumberNext]
    have h : Begins close reader loop steps (a :: items) (t ++ close :: rest)
        ((a :: items).reverse ++ as, rest) := ih (by omega) (by omega)
    rw [List.reverse_cons, List.append_assoc] at h
    rw [List.append_assoc, List.cons_append]
    refine .of_padded hl.isClose hr hp (by omega) hnext fun behind ha => hl.succ.2 (.inr ⟨_, ?_, h⟩)
    rw [skipSpace_append ha, skipSpace_cons (by decide)]

/-- What is taken behind an opening bracket is the content of the grammar and a closing bracket. -/
theorem IsLoop.content_sound (hl : IsLoop close reader loop) (hr : Reads reader item bound)
    {steps : Nat} {items : List α}
    (h : Closes close [] s (items, rest) ∨ Begins close reader loop steps [] s (items, rest)) :
    ∃ t, s = t ++ close :: rest ∧ IsContent item t items := by
  rcases h with ⟨rest', hclose, hresult⟩ | h
  · obtain ⟨rfl, rfl⟩ := Prod.mk.inj hresult
    obtain ⟨before, hb, hs⟩ := exists_blank s
    rw [hclose] at hs
    exact ⟨before, hs, .empty hb⟩
  · obtain ⟨t, as, hs, ht, rfl⟩ := hl.sequence_sound hr h
    exact ⟨t, hs, .items ht⟩

/-- The content of the grammar and a closing bracket are taken. -/
theorem IsLoop.content_append (hl : IsLoop close reader loop) (hr : Reads reader item bound)
    {items : List α} (ht : IsContent item t items) {steps : Nat} (hs : t.length < steps)
    (hb : t.length < bound) :
    Closes close [] (t ++ close :: rest) (items, rest) ∨
      Begins close reader loop steps [] (t ++ close :: rest) (items, rest) := by
  cases ht with
  | empty hblank =>
    have hspace : isSpace close = false := by rcases hl.isClose with rfl | rfl <;> decide
    exact .inl ⟨rest, by rw [skipSpace_append hblank, skipSpace_cons hspace], rfl⟩
  | items ht => exact .inr (hl.sequence_append hr ht hs hb)

end Loops

end EndpointTypings.Json
