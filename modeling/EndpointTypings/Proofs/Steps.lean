import Mathlib.Data.List.Forall2

/-!
# Steps that may fail

A chain of steps in `Except` gives a result exactly if each of its steps does, and otherwise the
error of the first that does not. The proofs about readers take such chains apart, and put them
together, by these equivalences.
-/

namespace EndpointTypings

variable {ε α β : Type}

/-- A step with another after it gives a result exactly if both do. -/
theorem bind_eq_ok_iff {x : Except ε α} {f : α → Except ε β} {b : β} :
    (x >>= f) = .ok b ↔ ∃ a, x = .ok a ∧ f a = .ok b := by
  cases x with
  | error e => exact ⟨nofun, nofun⟩
  | ok a => exact ⟨fun h => ⟨a, rfl, h⟩, fun ⟨_, rfl, h⟩ => h⟩

/-- A step whose result is changed gives a result exactly if it did before. -/
theorem map_eq_ok_iff {x : Except ε α} {f : α → β} {b : β} :
    x.map f = .ok b ↔ ∃ a, x = .ok a ∧ f a = b := by
  cases x with
  | error e => exact ⟨nofun, nofun⟩
  | ok a => simp [Except.map]

/-- A step for each item of a list gives a list of results exactly if each step gives its own. -/
theorem mapM_eq_ok_iff {f : α → Except ε β} {items : List α} {results : List β} :
    items.mapM f = .ok results ↔ List.Forall₂ (f · = .ok ·) items results := by
  induction items generalizing results with
  | nil =>
    rw [List.mapM_nil, List.forall₂_nil_left_iff]
    exact ⟨fun h => (Except.ok.inj h).symm, fun h => congrArg _ h.symm⟩
  | cons item items ih =>
    rw [List.mapM_cons, bind_eq_ok_iff, List.forall₂_cons_left_iff]
    constructor
    · rintro ⟨result, hf, h⟩
      obtain ⟨results', hm, hp⟩ := bind_eq_ok_iff.1 h
      exact ⟨result, results', hf, ih.1 hm, (Except.ok.inj hp).symm⟩
    · rintro ⟨result, results', hf, hm, rfl⟩
      exact ⟨result, hf, bind_eq_ok_iff.2 ⟨results', ih.2 hm, rfl⟩⟩

/-- If each step gives exactly the results that a relation allows, so do the steps for a list. -/
theorem mapM_eq_ok_iff_forall₂ {f : α → Except ε β} {allowed : α → β → Prop} {items : List α}
    {results : List β} (h : ∀ item ∈ items, ∀ result, f item = .ok result ↔ allowed item result) :
    items.mapM f = .ok results ↔ List.Forall₂ allowed items results := by
  rw [mapM_eq_ok_iff]
  constructor
  · intro hall
    have hboth := (List.forall₂_and_left _ _).2 ⟨h, hall⟩
    exact hboth.imp fun item result hr => (hr.1 result).1 hr.2
  · intro hall
    have hboth := (List.forall₂_and_left _ _).2 ⟨h, hall⟩
    exact hboth.imp fun item result hr => (hr.1 result).2 hr.2

/-- What every step for an item keeps is kept by the steps for a list. -/
theorem foldlM_keeps {f : β → α → Except ε β} {kept : β → Prop} {items : List α} {b b' : β}
    (hf : ∀ b item b', kept b → f b item = .ok b' → kept b') (hb : kept b)
    (h : items.foldlM f b = .ok b') : kept b' := by
  induction items generalizing b with
  | nil =>
    obtain rfl := Except.ok.inj h
    exact hb
  | cons item items ih =>
    rw [List.foldlM_cons, bind_eq_ok_iff] at h
    obtain ⟨next, hnext, h⟩ := h
    exact ih (hf b item next hb hnext) h

/-- If the steps for a list give a result, each item was stepped over at some point. -/
theorem exists_ok_of_foldlM {f : β → α → Except ε β} {items : List α} {b b' : β}
    (h : items.foldlM f b = .ok b') :
    ∀ item ∈ items, ∃ before after, f before item = .ok after := by
  induction items generalizing b with
  | nil => exact List.forall_mem_nil _
  | cons item items ih =>
    rw [List.foldlM_cons, bind_eq_ok_iff] at h
    obtain ⟨next, hnext, h⟩ := h
    exact List.forall_mem_cons.2 ⟨⟨b, next, hnext⟩, ih h⟩

/-- If each item can be stepped over at any point, the steps for a list give a result. -/
theorem exists_foldlM_eq_ok {f : β → α → Except ε β} {items : List α}
    (hf : ∀ item ∈ items, ∀ b, ∃ b', f b item = .ok b') (b : β) :
    ∃ b', items.foldlM f b = .ok b' := by
  induction items generalizing b with
  | nil => exact ⟨b, rfl⟩
  | cons item items ih =>
    obtain ⟨hitem, hitems⟩ := List.forall_mem_cons.1 hf
    obtain ⟨next, hnext⟩ := hitem b
    obtain ⟨b', hb'⟩ := ih hitems next
    exact ⟨b', by rw [List.foldlM_cons, hnext]; exact hb'⟩

/-! ## Errors -/

/-- A step gives a result exactly if it gives no error. -/
theorem exists_ok_iff {x : Except ε α} : (∃ a, x = .ok a) ↔ ∀ e, x ≠ .error e := by
  cases x with
  | error e => exact ⟨nofun, fun h => absurd rfl (h e)⟩
  | ok a => exact ⟨fun _ => nofun, fun _ => ⟨a, rfl⟩⟩

/-- A step with another after it gives the error of the first that does not give a result. -/
theorem bind_eq_error_iff {x : Except ε α} {f : α → Except ε β} {e : ε} :
    (x >>= f) = .error e ↔ x = .error e ∨ ∃ a, x = .ok a ∧ f a = .error e := by
  cases x with
  | error e' =>
    have hbind : ((.error e' : Except ε α) >>= f) = .error e' := rfl
    simp [hbind]
  | ok a =>
    constructor
    · exact fun h => .inr ⟨a, rfl, h⟩
    · rintro (h | ⟨a', h, hf⟩)
      · cases h
      · obtain rfl := Except.ok.inj h
        exact hf

/-- A change of the result leaves an error as it is. -/
theorem map_eq_error_iff {x : Except ε α} {f : α → β} {e : ε} :
    x.map f = .error e ↔ x = .error e := by
  cases x with
  | error e' => simp [Except.map]
  | ok a => exact ⟨nofun, nofun⟩

/-- What fails first in a list: it fails, and nothing before it does. -/
def FirstFailure (fails : α → ε → Prop) (items : List α) (e : ε) : Prop :=
  ∃ front item back, items = front ++ item :: back ∧ (∀ other ∈ front, ∀ e, ¬ fails other e) ∧
    fails item e

/-- There is nothing to fail in no items. -/
theorem not_firstFailure_nil {fails : α → ε → Prop} {e : ε} : ¬ FirstFailure fails [] e := by
  rintro ⟨front, item, back, h, -⟩
  simp at h

/-- The first failure is that of the first item, or it fails nowhere and the failure is the first in
the other items. -/
theorem firstFailure_cons_iff {fails : α → ε → Prop} {item : α} {items : List α} {e : ε} :
    FirstFailure fails (item :: items) e ↔
      fails item e ∨ (∀ e, ¬ fails item e) ∧ FirstFailure fails items e := by
  constructor
  · rintro ⟨front, bad, back, h, hfront, hbad⟩
    cases front with
    | nil =>
      obtain ⟨rfl, rfl⟩ := List.cons.inj h
      exact .inl hbad
    | cons first front =>
      obtain ⟨rfl, rfl⟩ := List.cons.inj h
      obtain ⟨hfirst, hfront⟩ := List.forall_mem_cons.1 hfront
      exact .inr ⟨hfirst, front, bad, back, rfl, hfront, hbad⟩
  · rintro (h | ⟨hitem, front, bad, back, rfl, hfront, hbad⟩)
    · exact ⟨[], item, items, rfl, nofun, h⟩
    · exact ⟨item :: front, bad, back, rfl, List.forall_mem_cons.2 ⟨hitem, hfront⟩, hbad⟩

/-- Steps for the items of a list, each failing whatever came before it, give the error of the item
that fails first. -/
theorem foldlM_eq_error_iff {f : β → α → Except ε β} {fails : α → ε → Prop} {items : List α}
    (hf : ∀ item ∈ items, ∀ b e, f b item = .error e ↔ fails item e) {b : β} {e : ε} :
    items.foldlM f b = .error e ↔ FirstFailure fails items e := by
  induction items generalizing b with
  | nil => exact ⟨nofun, fun h => absurd h not_firstFailure_nil⟩
  | cons item items ih =>
    obtain ⟨hitem, hitems⟩ := List.forall_mem_cons.1 hf
    rw [List.foldlM_cons, bind_eq_error_iff, firstFailure_cons_iff, hitem]
    refine or_congr_right ⟨?_, ?_⟩
    · rintro ⟨b', hb', h⟩
      refine ⟨fun e' he' => ?_, (ih hitems).1 h⟩
      rw [← hitem b, hb'] at he'
      cases he'
    · rintro ⟨hfine, h⟩
      obtain ⟨b', hb'⟩ := exists_ok_iff.2 fun e' he' => hfine e' ((hitem b e').1 he')
      exact ⟨b', hb', (ih hitems).2 h⟩

/-- A step for each item of a list gives the error of the item that fails first. -/
theorem mapM_eq_error_iff {f : α → Except ε β} {items : List α} {e : ε} :
    items.mapM f = .error e ↔ FirstFailure (fun item e => f item = .error e) items e := by
  induction items with
  | nil => exact ⟨nofun, fun h => absurd h not_firstFailure_nil⟩
  | cons item items ih =>
    rw [List.mapM_cons, bind_eq_error_iff, firstFailure_cons_iff, ← exists_ok_iff]
    refine or_congr_right ?_
    have hrest : ∀ b, (items.mapM f >>= fun bs => pure (b :: bs)) = .error e
        ↔ items.mapM f = .error e := by
      intro b
      rw [bind_eq_error_iff]
      exact or_iff_left fun ⟨_, _, h⟩ => nomatch h
    constructor
    · rintro ⟨b, hb, h⟩
      exact ⟨⟨b, hb⟩, ih.1 ((hrest b).1 h)⟩
    · rintro ⟨⟨b, hb⟩, h⟩
      exact ⟨b, hb, (hrest b).2 (ih.2 h)⟩

end EndpointTypings
