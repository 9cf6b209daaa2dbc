import Mathlib.Logic.Function.Basic
import WasmBridge.Proofs.Memory.Records

/-!
# Who holds which block

Several parties share one memory. Each live block is held by exactly one of them:
by a call, which holds one block for its record and later another one for its
result, or by somebody else. What a party does to its own blocks leaves all blocks
of the others as they are, so whatever another party knows about its own blocks
stays true. The lemmas here say so for each way in which blocks change.
-/

namespace WasmBridge

open LinearMemory FatPtr

variable {κ : Type}

/-- The holder of a live block. -/
inductive Owner (κ : Type) where
  | other
  | record (k : κ)
  | result (k : κ)
  deriving DecidableEq

/-- The holders of the live blocks, by the offsets at which the blocks start. -/
abbrev Owners (κ : Type) := Int → Option (Owner κ)

/-- The memory is tiled, and exactly its live blocks are held. -/
structure Owned (owners : Owners κ) (m : LinearMemory) : Prop where
  tiled : Tiled m
  live : ∀ a, owners a ≠ none ↔ ∃ b ∈ m.live, b.start = a

/-- What a party holds is the same as before, and so are the bytes there. -/
structure Untouched (owners owners' : Owners κ) (m m' : LinearMemory) (w : Owner κ) : Prop where
  holds : ∀ a, owners' a = some w ↔ owners a = some w
  blocks : ∀ b ∈ m.live, owners b.start = some w →
    b ∈ m'.live ∧ ∀ a, b.Holds a → m'.byteAt a = m.byteAt a

variable {owners owners' : Owners κ} {m m' : LinearMemory} {b : Block} {w v : Owner κ}

theorem Untouched.refl (owners : Owners κ) (m : LinearMemory) (w : Owner κ) :
    Untouched owners owners m m w :=
  ⟨fun _ => Iff.rfl, fun _ hb _ => ⟨hb, fun _ _ => rfl⟩⟩

theorem Untouched.trans {owners₁ owners₂ owners₃ : Owners κ} {m₁ m₂ m₃ : LinearMemory}
    (h₁ : Untouched owners₁ owners₂ m₁ m₂ w) (h₂ : Untouched owners₂ owners₃ m₂ m₃ w) :
    Untouched owners₁ owners₃ m₁ m₃ w := by
  refine ⟨fun a => (h₂.holds a).trans (h₁.holds a), fun b hb hw => ?_⟩
  obtain ⟨hb₂, hbytes₁⟩ := h₁.blocks b hb hw
  obtain ⟨hb₃, hbytes₂⟩ := h₂.blocks b hb₂ ((h₁.holds b.start).mpr hw)
  exact ⟨hb₃, fun a ha => (hbytes₂ a ha).trans (hbytes₁ a ha)⟩

theorem owned_create {size align : Int} (halign : 1 ≤ align) {fresh : LinearMemory}
    (hfresh : create size align = .ok fresh) : Owned (κ := κ) (fun _ => none) fresh := by
  refine ⟨tiled_create halign hfresh, fun a => ?_⟩
  obtain ⟨u, -, hm⟩ := Outcome.bind_eq_ok.mp hfresh
  cases hm
  simp

/-- A party holds a live block at every offset that it holds. -/
theorem Owned.block_of_owner (h : Owned owners m) {a : Int} (ha : owners a = some w) :
    ∃ b ∈ m.live, b.start = a :=
  (h.live a).mp (by rw [ha]; exact Option.some_ne_none w)

/-! ## Blocks that are handed out -/

/-- The block of a request is held by nobody. -/
theorem Owned.unowned (h : Owned owners m) {length fat : Int} (hg : Granted m m' length fat b) :
    owners b.start = none := by
  by_contra hne
  obtain ⟨c, hc, hs⟩ := (h.live b.start).mp hne
  exact hg.fresh c hc hs

theorem Owned.take (h : Owned owners m) {length fat : Int} (hg : Granted m m' length fat b)
    (w : Owner κ) : Owned (Function.update owners b.start (some w)) m' := by
  refine ⟨hg.follows.tiled, fun a => ?_⟩
  rw [hg.live]
  by_cases ha : a = b.start
  · subst ha
    simp
  · rw [Function.update_of_ne ha, h.live]
    simp only [List.mem_cons, exists_eq_or_imp, or_iff_right (Ne.symm ha)]

theorem untouched_take (h : Owned owners m) {length fat : Int} (hg : Granted m m' length fat b)
    (hne : v ≠ w) : Untouched owners (Function.update owners b.start (some w)) m m' v := by
  refine ⟨fun a => ?_, fun c hc _ => ?_⟩
  · by_cases ha : a = b.start
    · subst ha
      simp [h.unowned hg, Ne.symm hne]
    · rw [Function.update_of_ne ha]
  · exact ⟨by rw [hg.live]; exact List.mem_cons_of_mem _ hc, fun a _ => by rw [hg.bytes]⟩

/-! ## Blocks that are given back -/

theorem Owned.drop (h : Owned owners m) {fat length : Int} (hb : b ∈ m.live)
    (hfat : Packs fat b.start length) :
    Owned (Function.update owners b.start none) (m.giveBack b) := by
  refine ⟨(follows_giveBack h.tiled hb hfat).tiled, fun a => ?_⟩
  simp only [mem_live_giveBack]
  by_cases ha : a = b.start
  · subst ha
    simp only [Function.update_self, ne_eq, not_true_eq_false, false_iff]
    rintro ⟨c, ⟨_, hne⟩, hs⟩
    exact hne hs
  · rw [Function.update_of_ne ha, h.live]
    constructor
    · rintro ⟨c, hc, rfl⟩
      exact ⟨c, ⟨hc, ha⟩, rfl⟩
    · rintro ⟨c, ⟨hc, _⟩, rfl⟩
      exact ⟨c, hc, rfl⟩

theorem untouched_drop (hv : owners b.start ≠ some v) :
    Untouched owners (Function.update owners b.start none) m (m.giveBack b) v := by
  refine ⟨fun a => ?_, fun c hc hcv => ?_⟩
  · by_cases ha : a = b.start
    · subst ha
      simp [hv]
    · rw [Function.update_of_ne ha]
  · have hne : c.start ≠ b.start := fun heq => hv (heq ▸ hcv)
    exact ⟨mem_live_giveBack.mpr ⟨hc, hne⟩, fun _ _ => rfl⟩

/-! ## Bytes that change within a block -/

theorem Owned.overwritten (h : Owned owners m) (hfollows : Follows m m')
    (hlive : m'.live = m.live) : Owned owners m' :=
  ⟨hfollows.tiled, by rw [hlive]; exact h.live⟩

/-- Bytes that change within a block concern its holder only. -/
theorem untouched_overwritten (h : Owned owners m) (hb : b ∈ m.live) (hlive : m'.live = m.live)
    (hbytes : ∀ a, ¬ b.Holds a → m'.byteAt a = m.byteAt a) (hv : owners b.start ≠ some v) :
    Untouched owners owners m m' v := by
  refine ⟨fun _ => Iff.rfl, fun c hc hcv => ⟨by rw [hlive]; exact hc, fun a ha => ?_⟩⟩
  have hne : c.start ≠ b.start := fun heq => hv (heq ▸ hcv)
  exact hbytes a ((h.tiled.live_apart hc hb hne).not_both ha)

/-! ## What a party knows about its blocks -/

variable {fat length : Int}

theorem Untouched.buffer (h : Untouched owners owners' m m' w) (hb : Buffer m fat length b)
    (hw : owners b.start = some w) : Buffer m' fat length b :=
  hb.keep (h.blocks b hb.mem hw).1

theorem Untouched.bytesFrom (h : Untouched owners owners' m m' w) (hb : Buffer m fat length b)
    (hw : owners b.start = some w) {count : Nat} (hcount : count ≤ length) :
    m'.bytesFrom b.start count = m.bytesFrom b.start count := by
  have hroom := hb.room
  refine bytesFrom_congr fun a h0 h1 => (h.blocks b hb.mem hw).2 a ?_
  unfold Block.Holds; omega

theorem Untouched.wordAt (h : Untouched owners owners' m m' w) (hb : Buffer m fat length b)
    (hw : owners b.start = some w) {i : Int} (hi : 0 ≤ i ∧ i + 4 ≤ length) :
    m'.wordAt (b.start + i) = m.wordAt (b.start + i) := by
  have hroom := hb.room
  refine wordAt_congr fun a h0 h1 => (h.blocks b hb.mem hw).2 a ?_
  unfold Block.Holds; omega

end WasmBridge
