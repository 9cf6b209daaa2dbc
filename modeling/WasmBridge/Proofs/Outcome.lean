import Mathlib.Data.List.Forall2

/-!
# Outcomes

How steps that may fail are put together. A chain of steps has succeeded when each
of its steps has, and then the results of all steps are known; the proofs about
chains start from there.
-/

namespace WasmBridge

variable {ε α β : Type}

namespace Outcome

@[simp] theorem bind_ok (a : α) (f : α → Except ε β) : (Except.ok a >>= f) = f a := rfl

@[simp] theorem bind_error (e : ε) (f : α → Except ε β) : (Except.error e >>= f) = .error e := rfl

@[simp] theorem pure_eq (a : α) : (pure a : Except ε α) = .ok a := rfl

@[simp] theorem map_ok (f : α → β) (a : α) : (f <$> (Except.ok a : Except ε α)) = .ok (f a) := rfl

@[simp] theorem map_error (f : α → β) (e : ε) :
    (f <$> (Except.error e : Except ε α)) = .error e := rfl

/-- A chain that succeeds has a first part that does. -/
theorem bind_eq_ok {x : Except ε α} {f : α → Except ε β} {b : β} :
    (x >>= f) = .ok b ↔ ∃ a, x = .ok a ∧ f a = .ok b := by
  cases x with
  | ok a => exact ⟨fun h => ⟨a, rfl, h⟩, fun ⟨_, ha, h⟩ => by cases ha; exact h⟩
  | error e => exact ⟨fun h => (nomatch h), fun ⟨_, ha, _⟩ => (nomatch ha)⟩

theorem map_eq_ok {x : Except ε α} {f : α → β} {b : β} :
    (f <$> x) = .ok b ↔ ∃ a, x = .ok a ∧ f a = b := by
  cases x with
  | ok a => exact ⟨fun h => ⟨a, rfl, Except.ok.inj h⟩, fun ⟨_, ha, h⟩ => by cases ha; rw [← h]; rfl⟩
  | error e => exact ⟨fun h => (nomatch h), fun ⟨_, ha, _⟩ => (nomatch ha)⟩

theorem map_eq_error {x : Except ε α} {f : α → β} {e : ε} :
    (f <$> x) = .error e ↔ x = .error e := by
  cases x with
  | ok a => exact ⟨fun h => (nomatch h), fun h => (nomatch h)⟩
  | error e' => exact ⟨fun h => by cases h; rfl, fun h => by cases h; rfl⟩

/-- Other words for an error change nothing where there is none. -/
theorem mapError_eq_ok {ε' : Type} {x : Except ε α} {f : ε → ε'} {a : α} :
    x.mapError f = .ok a ↔ x = .ok a := by
  cases x with
  | ok a' => exact ⟨fun h => by cases h; rfl, fun h => by cases h; rfl⟩
  | error e => exact ⟨fun h => (nomatch h), fun h => (nomatch h)⟩

instance decidableEqOk [DecidableEq α] {x : Except ε α} {a : α} : Decidable (x = .ok a) :=
  match x with
  | .ok b => decidable_of_iff (b = a) ⟨congrArg _, Except.ok.inj⟩
  | .error _ => .isFalse nofun

instance decidableOfOk {x : Except ε α} {P : α → Prop} [DecidablePred P] :
    Decidable (∀ a, x = .ok a → P a) :=
  match x with
  | .ok a => decidable_of_iff (P a) ⟨fun h _ heq => Except.ok.inj heq ▸ h, fun h => h a rfl⟩
  | .error _ => .isTrue nofun

/-- An outcome that is no error is there. -/
theorem exists_of_isOk {x : Except ε α} (h : x.isOk = true) : ∃ a, x = .ok a := by
  cases x with
  | ok a => exact ⟨a, rfl⟩
  | error e => cases h

/-- A list is run through piece by piece: it succeeds when each piece does. -/
theorem mapM_eq_ok_iff {f : α → Except ε β} {xs : List α} {ys : List β} :
    xs.mapM f = .ok ys ↔ List.Forall₂ (fun x y => f x = .ok y) xs ys := by
  induction xs generalizing ys with
  | nil =>
    rw [List.mapM_nil, List.forall₂_nil_left_iff]
    exact ⟨fun h => (Except.ok.inj h).symm, fun h => by rw [h]; rfl⟩
  | cons x xs ih =>
    rw [List.mapM_cons, bind_eq_ok]
    constructor
    · rintro ⟨y, hy, hrest⟩
      obtain ⟨rest, hmap, heq⟩ := bind_eq_ok.mp hrest
      cases heq
      exact .cons hy (ih.mp hmap)
    · rintro (_ | ⟨hy, hrest⟩)
      exact ⟨_, hy, bind_eq_ok.mpr ⟨_, ih.mpr hrest, rfl⟩⟩

/-- A run through a list that succeeds has made something of each piece, in the same place. -/
theorem exists_getElem?_of_mapM {f : α → Except ε β} {xs : List α} {ys : List β} {x : α} {i : Nat}
    (h : xs.mapM f = .ok ys) (hx : xs[i]? = some x) : ∃ y, ys[i]? = some y ∧ f x = .ok y := by
  have hpieces := mapM_eq_ok_iff.mp h
  clear h
  induction hpieces generalizing i with
  | nil => cases hx
  | cons hhead _ ih =>
    cases i with
    | zero => cases hx; exact ⟨_, rfl, hhead⟩
    | succ i => exact ih hx

theorem exists_of_mem_mapM {f : α → Except ε β} {xs : List α} {ys : List β} {x : α}
    (h : xs.mapM f = .ok ys) (hx : x ∈ xs) : ∃ y, f x = .ok y := by
  obtain ⟨i, hi⟩ := List.mem_iff_getElem?.mp hx
  obtain ⟨y, -, hy⟩ := exists_getElem?_of_mapM h hi
  exact ⟨y, hy⟩

/-- A run through a list succeeds if it has something to make of each piece. -/
theorem exists_mapM {f : α → Except ε β} {xs : List α} (h : ∀ x ∈ xs, ∃ y, f x = .ok y) :
    ∃ ys, xs.mapM f = .ok ys := by
  induction xs with
  | nil => exact ⟨[], rfl⟩
  | cons x xs ih =>
    obtain ⟨⟨y, hy⟩, hrest⟩ := List.forall_mem_cons.mp h
    obtain ⟨ys, hys⟩ := ih hrest
    exact ⟨y :: ys, mapM_eq_ok_iff.mpr (.cons hy (mapM_eq_ok_iff.mp hys))⟩

/-- Each result of a run through a list is that of a piece. -/
theorem exists_of_mem_results {f : α → Except ε β} {xs : List α} {ys : List β} {y : β}
    (h : xs.mapM f = .ok ys) (hy : y ∈ ys) : ∃ x ∈ xs, f x = .ok y := by
  have hpieces := mapM_eq_ok_iff.mp h
  clear h
  induction hpieces with
  | nil => cases hy
  | cons hhead _ ih =>
    rcases List.mem_cons.mp hy with rfl | hy
    · exact ⟨_, List.mem_cons_self, hhead⟩
    · obtain ⟨x, hx, hfx⟩ := ih hy
      exact ⟨x, List.mem_cons_of_mem _ hx, hfx⟩

/-- What shows of each result as of its piece shows of the results as of the pieces. -/
theorem map_eq_of_mapM {γ : Type} {f : α → Except ε β} {g : β → γ} {k : α → γ} {xs : List α}
    {ys : List β} (h : xs.mapM f = .ok ys) (hpiece : ∀ x y, f x = .ok y → g y = k x) :
    ys.map g = xs.map k := by
  have hpieces := mapM_eq_ok_iff.mp h
  clear h
  induction hpieces with
  | nil => rfl
  | cons hhead _ ih => rw [List.map_cons, List.map_cons, hpiece _ _ hhead, ih]

/-- A check of each piece that succeeds has passed each. -/
theorem of_mem_forM {f : α → Except ε Unit} {xs : List α} {x : α}
    (h : xs.forM f = .ok ()) (hx : x ∈ xs) : f x = .ok () := by
  induction xs with
  | nil => cases hx
  | cons y ys ih =>
    rw [List.forM] at h
    obtain ⟨_, hhead, hrest⟩ := bind_eq_ok.mp h
    rcases List.mem_cons.mp hx with rfl | hx
    · exact hhead
    · exact ih hrest hx

/-- Checks of several pieces fail at the first piece that does not pass its own, and as that one
does. -/
theorem forM_eq_error_iff {f : α → Except ε Unit} {xs : List α} {e : ε} :
    xs.forM f = .error e ↔ ∃ before x after, xs = before ++ x :: after
      ∧ (∀ y ∈ before, f y = .ok ()) ∧ f x = .error e := by
  constructor
  · intro h
    induction xs with
    | nil => cases h
    | cons x xs ih =>
      rw [List.forM] at h
      cases hx : f x with
      | error e' =>
        rw [hx] at h
        cases h
        exact ⟨[], x, xs, rfl, nofun, hx⟩
      | ok _ =>
        rw [hx] at h
        obtain ⟨before, y, after, rfl, hbefore, hy⟩ := ih h
        exact ⟨x :: before, y, after, rfl, List.forall_mem_cons.mpr ⟨hx, hbefore⟩, hy⟩
  · rintro ⟨before, x, after, rfl, hbefore, hx⟩
    induction before with
    | nil => rw [List.nil_append, List.forM, hx, bind_error]
    | cons y before ih =>
      obtain ⟨hy, hrest⟩ := List.forall_mem_cons.mp hbefore
      rw [List.cons_append, List.forM, hy, bind_ok, ih hrest]

/-- What two runs through a list in a row have made of each piece. -/
theorem forall₂_of_mapM_mapM {γ : Type} {f : α → Except ε β} {g : β → Except ε γ} {xs : List α}
    {ys : List β} {zs : List γ} (hf : xs.mapM f = .ok ys) (hg : ys.mapM g = .ok zs) :
    List.Forall₂ (fun x z => (f x >>= g) = .ok z) xs zs := by
  have hf' := mapM_eq_ok_iff.mp hf
  have hg' := mapM_eq_ok_iff.mp hg
  clear hf hg
  induction hf' generalizing zs with
  | nil => cases hg'; exact .nil
  | cons hx _ ih =>
    cases hg' with
    | cons hy hrest => exact .cons (bind_eq_ok.mpr ⟨_, hx, hy⟩) (ih hrest)

/-! ## There and back -/

section Back

variable {γ τ : Type} {ys : List β}

/-- What has been converted piece by piece comes back if each piece does. -/
theorem mapM_back {f : α → Except ε β} {g : β → Except ε γ} {R : α → γ → Prop} {xs : List α}
    (h : xs.mapM f = .ok ys)
    (hback : ∀ x ∈ xs, ∀ y, f x = .ok y → ∃ z, g y = .ok z ∧ R x z) :
    ∃ zs, ys.mapM g = .ok zs ∧ List.Forall₂ R xs zs := by
  have hpieces := mapM_eq_ok_iff.mp h
  clear h
  induction hpieces with
  | nil => exact ⟨[], rfl, .nil⟩
  | @cons x y xs ys hx _ ih =>
    obtain ⟨z, hz, hR⟩ := hback x List.mem_cons_self y hx
    obtain ⟨zs, hzs, hRs⟩ := ih fun x' hx' => hback x' (List.mem_cons_of_mem _ hx')
    refine ⟨z :: zs, ?_, .cons hR hRs⟩
    rw [List.mapM_cons, hz, bind_ok, hzs]
    rfl

/-- The same where each piece has a mark that both directions look at. -/
theorem mapM_back_zip {f : α × τ → Except ε β} {g : β × τ → Except ε γ}
    {R : α × τ → γ → Prop} {xs : List (α × τ)} (h : xs.mapM f = .ok ys)
    (hback : ∀ x ∈ xs, ∀ y, f x = .ok y → ∃ z, g (y, x.2) = .ok z ∧ R x z) :
    ∃ zs, (ys.zip (xs.map (·.2))).mapM g = .ok zs ∧ List.Forall₂ R xs zs := by
  have hpieces := mapM_eq_ok_iff.mp h
  clear h
  induction hpieces with
  | nil => exact ⟨[], rfl, .nil⟩
  | @cons x y xs ys hx _ ih =>
    obtain ⟨z, hz, hR⟩ := hback x List.mem_cons_self y hx
    obtain ⟨zs, hzs, hRs⟩ := ih fun x' hx' => hback x' (List.mem_cons_of_mem _ hx')
    refine ⟨z :: zs, ?_, .cons hR hRs⟩
    rw [List.map_cons, List.zip_cons_cons, List.mapM_cons, hz, bind_ok, hzs]
    rfl

end Back

/-! ## How a chain can fail -/

/-- An error, if there is one, is one of those. -/
def FailsOnly (P : ε → Prop) (x : Except ε α) : Prop := ∀ e, x = .error e → P e

section Failing

variable {P : ε → Prop}

theorem failsOnly_ok (a : α) : FailsOnly P (.ok a : Except ε α) := nofun

theorem failsOnly_error {e : ε} (h : P e) : FailsOnly P (.error e : Except ε α) :=
  fun _ heq => Except.error.inj heq ▸ h

theorem FailsOnly.imp {Q : ε → Prop} {x : Except ε α} (h : FailsOnly P x)
    (himp : ∀ e, P e → Q e) : FailsOnly Q x := fun e he => himp e (h e he)

/-- A chain fails in its first part or, if there is a result, in the rest. -/
theorem FailsOnly.bind {x : Except ε α} {f : α → Except ε β} (hx : FailsOnly P x)
    (hf : ∀ a, x = .ok a → FailsOnly P (f a)) : FailsOnly P (x >>= f) := by
  cases x with
  | ok a => exact hf a rfl
  | error e => exact failsOnly_error (hx e rfl)

theorem failsOnly_mapM {f : α → Except ε β} {xs : List α}
    (h : ∀ x ∈ xs, FailsOnly P (f x)) : FailsOnly P (xs.mapM f) := by
  induction xs with
  | nil => exact failsOnly_ok _
  | cons x xs ih =>
    rw [List.mapM_cons]
    refine (h x List.mem_cons_self).bind fun y _ => ?_
    exact (ih fun x' hx' => h x' (List.mem_cons_of_mem _ hx')).bind fun _ _ => failsOnly_ok _

theorem failsOnly_foldlM {f : β → α → Except ε β} {xs : List α} {b : β}
    (h : ∀ x ∈ xs, ∀ b, FailsOnly P (f b x)) : FailsOnly P (xs.foldlM f b) := by
  induction xs generalizing b with
  | nil => exact failsOnly_ok _
  | cons x xs ih =>
    rw [List.foldlM_cons]
    refine (h x List.mem_cons_self b).bind fun b' _ => ?_
    exact ih fun x' hx' => h x' (List.mem_cons_of_mem _ hx')

end Failing

/-! ## What a chain can give -/

/-- A result, if there is one, is one of those. -/
def Yields (P : α → Prop) (x : Except ε α) : Prop := ∀ a, x = .ok a → P a

section Yielding

variable {P : α → Prop} {Q : β → Prop}

theorem yields_ok {a : α} (h : P a) : Yields P (.ok a : Except ε α) :=
  fun _ heq => Except.ok.inj heq ▸ h

theorem yields_error {e : ε} : Yields P (.error e : Except ε α) := nofun

theorem Yields.bind {x : Except ε α} {f : α → Except ε β} (hx : Yields P x)
    (hf : ∀ a, P a → Yields Q (f a)) : Yields Q (x >>= f) := by
  cases x with
  | ok a => exact hf a (hx a rfl)
  | error e => exact yields_error

theorem yields_mapM {f : α → Except ε β} {xs : List α} (h : ∀ x ∈ xs, Yields Q (f x)) :
    Yields (∀ y ∈ ·, Q y) (xs.mapM f) := by
  intro ys hys y hy
  obtain ⟨x, hx, hfx⟩ := exists_of_mem_results hys hy
  exact h x hx y hfx

/-- What holds at the start and is kept by each step holds in the end. -/
theorem yields_foldlM {f : β → α → Except ε β} {xs : List α} {b : β} (hb : Q b)
    (h : ∀ x ∈ xs, ∀ b, Q b → Yields Q (f b x)) : Yields Q (xs.foldlM f b) := by
  induction xs generalizing b with
  | nil => exact yields_ok hb
  | cons x xs ih =>
    rw [List.foldlM_cons]
    refine (h x List.mem_cons_self b hb).bind fun b' hb' => ?_
    exact ih hb' fun x' hx' => h x' (List.mem_cons_of_mem _ hx')

end Yielding

/-! ## What a chain becomes that may go on for longer -/

/-- One chain is the other, unless it stops before with the error `e`. -/
def CutShort (e : ε) (x y : Except ε α) : Prop := x = .error e ∨ x = y

section Cutting

variable {e : ε} {x y : Except ε α}

theorem cutShort_refl (x : Except ε α) : CutShort e x x := .inr rfl

theorem cutShort_error (y : Except ε α) : CutShort e (.error e) y := .inl rfl

/-- A result stays when the chain may go on for longer. -/
theorem CutShort.ok {a : α} (h : CutShort e x y) (hx : x = .ok a) : y = .ok a := by
  obtain h | rfl := h
  · simp [h] at hx
  · exact hx

theorem CutShort.bind {f g : α → Except ε β} (h : CutShort e x y)
    (hf : ∀ a, CutShort e (f a) (g a)) : CutShort e (x >>= f) (y >>= g) := by
  obtain rfl | rfl := h
  · exact cutShort_error _
  cases x with
  | ok a => exact hf a
  | error e' => exact cutShort_refl _

theorem cutShort_ite {c : Prop} [Decidable c] {x' y' : Except ε α} (hx : CutShort e x x')
    (hy : CutShort e y y') : CutShort e (if c then x else y) (if c then x' else y') := by
  split
  · exact hx
  · exact hy

theorem CutShort.trans {z : Except ε α} (h : CutShort e x y) (h' : CutShort e y z) :
    CutShort e x z := by
  obtain hshort | rfl := h
  · exact .inl hshort
  · exact h'

theorem CutShort.map {f : α → β} (h : CutShort e x y) : CutShort e (f <$> x) (f <$> y) :=
  h.bind fun a => cutShort_refl (.ok (f a))

theorem cutShort_mapM {f g : α → Except ε β} {xs : List α} (h : ∀ a, CutShort e (f a) (g a)) :
    CutShort e (xs.mapM f) (xs.mapM g) := by
  induction xs with
  | nil => exact cutShort_refl _
  | cons x xs ih =>
    rw [List.mapM_cons, List.mapM_cons]
    exact (h x).bind fun y => ih.bind fun ys => cutShort_refl _

theorem cutShort_foldlM {f g : β → α → Except ε β} {xs : List α} {b : β}
    (h : ∀ b a, CutShort e (f b a) (g b a)) : CutShort e (xs.foldlM f b) (xs.foldlM g b) := by
  induction xs generalizing b with
  | nil => exact cutShort_refl _
  | cons x xs ih =>
    rw [List.foldlM_cons, List.foldlM_cons]
    exact (h b x).bind fun b' => ih

end Cutting

end Outcome

end WasmBridge
