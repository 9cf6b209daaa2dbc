import Mathlib.Data.List.Nodup
import Mathlib.Data.List.Pairwise
import WasmBridge.Proofs.Memory.Effects

/-!
# The blocks tile the memory

The live and the freed blocks together cover the memory from the alignment up to
the place of the next new block, without gaps and without overlaps. Every
operation keeps this, whether it succeeds or fails: a request moves a freed block
to the live ones or adds a block exactly at the end, giving back moves a block
the other way, and nothing else touches the blocks at all.

Two consequences carry everything that is proved about buffers later on. Blocks
lie within the memory, so a write through a live block never makes it longer; and
two live blocks have no byte in common.
-/

namespace WasmBridge

namespace Block

/-- An offset lies in the block. -/
def Holds (b : Block) (a : Int) : Prop := b.start ≤ a ∧ a < b.start + b.size

instance (b : Block) (a : Int) : Decidable (b.Holds a) := inferInstanceAs (Decidable (_ ∧ _))

/-- One of the blocks ends before the other one starts. -/
def Apart (b c : Block) : Prop := b.start + b.size ≤ c.start ∨ c.start + c.size ≤ b.start

instance (b c : Block) : Decidable (Apart b c) := inferInstanceAs (Decidable (_ ∨ _))

instance : Std.Symm Apart := ⟨fun _ _ => Or.symm⟩

/-- No block is apart from itself unless it is empty. -/
theorem Apart.irrefl {b : Block} (hpos : 0 < b.size) : ¬ Apart b b := by
  unfold Apart; omega

/-- No offset lies in two blocks that are apart. -/
theorem Apart.not_both {b c : Block} (h : Apart b c) {a : Int} (hb : b.Holds a) :
    ¬ c.Holds a := by
  unfold Apart Holds at *; omega

end Block

namespace LinearMemory

open FatPtr

variable {m m' : LinearMemory}

/-- All blocks, the live and the freed ones. -/
def blocks (m : LinearMemory) : List Block := m.live ++ m.freed

/-- The blocks cover the memory from the alignment up to the next new block, each byte once. -/
structure Tiled (m : LinearMemory) : Prop where
  align_pos : 0 < m.align
  /-- No two blocks overlap. -/
  apart : m.blocks.Pairwise Block.Apart
  /-- Blocks start and end at multiples of the alignment, and none is empty. -/
  multiple : ∀ b ∈ m.blocks, m.align ∣ b.start ∧ m.align ∣ b.size ∧ 0 < b.size
  /-- No byte is left out. -/
  cover : ∀ a, (∃ b ∈ m.blocks, b.Holds a) ↔ m.align ≤ a ∧ a < m.next
  align_dvd_next : m.align ∣ m.next
  align_le_next : m.align ≤ m.next
  /-- Blocks lie within the memory. -/
  reach : m.blocks ≠ [] → m.next ≤ m.size

/-- Without blocks there is nothing to tile. -/
theorem tiled_create {size align : Int} (halign : 1 ≤ align)
    (h : create size align = .ok m) : Tiled m := by
  obtain ⟨u, -, hm⟩ := Outcome.bind_eq_ok.mp h
  cases hm
  have hpos : 0 < align := by omega
  refine ⟨hpos, .nil, ?_, ?_, Int.dvd_refl _, Int.le_refl _, fun hc => absurd rfl hc⟩
  · intro b hb; simp [blocks] at hb
  · intro a; simp only [blocks, List.append_nil, List.not_mem_nil, false_and, exists_false,
      false_iff]; omega

/-! ## What a tiling says about single blocks -/

theorem mem_blocks {b : Block} : b ∈ m.blocks ↔ b ∈ m.live ∨ b ∈ m.freed := List.mem_append

theorem Tiled.within (h : Tiled m) {b : Block} (hb : b ∈ m.blocks) :
    m.align ≤ b.start ∧ b.start + b.size ≤ m.next ∧ m.next ≤ m.size := by
  have hpos := (h.multiple b hb).2.2
  have h1 := (h.cover b.start).mp ⟨b, hb, by unfold Block.Holds; omega⟩
  have h2 := (h.cover (b.start + b.size - 1)).mp ⟨b, hb, by unfold Block.Holds; omega⟩
  have h3 := h.reach (List.ne_nil_of_mem hb)
  omega

/-- No block occurs twice, be it live or freed. -/
theorem Tiled.nodup (h : Tiled m) : m.blocks.Nodup := by
  refine h.apart.imp_of_mem fun {b c} hb _ hapart heq => ?_
  subst heq
  exact Block.Apart.irrefl (h.multiple b hb).2.2 hapart

theorem Tiled.eq_of_meet (h : Tiled m) {b c : Block} (hb : b ∈ m.blocks) (hc : c ∈ m.blocks)
    {a : Int} (hba : b.Holds a) (hca : c.Holds a) : b = c := by
  by_cases heq : b = c
  · exact heq
  · exact absurd hca ((h.apart.forall hb hc heq).not_both hba)

theorem Tiled.eq_of_start (h : Tiled m) {b c : Block} (hb : b ∈ m.blocks) (hc : c ∈ m.blocks)
    (hs : b.start = c.start) : b = c := by
  have hb' := (h.multiple b hb).2.2
  have hc' := (h.multiple c hc).2.2
  exact h.eq_of_meet hb hc (a := b.start) (by unfold Block.Holds; omega)
    (by unfold Block.Holds; omega)

/-- No two live blocks start at the same offset. -/
theorem Tiled.nodup_starts (h : Tiled m) : (m.live.map Block.start).Nodup :=
  List.Nodup.map_on (fun _ hb _ hc hs =>
    h.eq_of_start (mem_blocks.mpr (.inl hb)) (mem_blocks.mpr (.inl hc)) hs)
    (List.nodup_append.mp h.nodup).1

/-- The live block that starts at an offset. -/
theorem Tiled.blockAt?_eq_some (h : Tiled m) {start : Int} {b : Block} :
    m.blockAt? start = some b ↔ b ∈ m.live ∧ b.start = start := by
  unfold blockAt?
  constructor
  · intro hb
    exact ⟨List.mem_of_find?_eq_some hb, by simpa using List.find?_some hb⟩
  · rintro ⟨hb, hs⟩
    cases hfind : m.live.find? fun c => c.start = start with
    | none =>
        have := List.find?_eq_none.mp hfind b hb
        simp [hs] at this
    | some c =>
        have hc := List.mem_of_find?_eq_some hfind
        have hcs : c.start = start := by simpa using List.find?_some hfind
        rw [h.eq_of_start (mem_blocks.mpr (.inl hc)) (mem_blocks.mpr (.inl hb)) (hcs.trans hs.symm)]

/-! ## What keeps the tiling -/

/-- Blocks may change places among the live and the freed ones, and the memory may grow. -/
theorem Tiled.perm (h : Tiled m) (hblocks : m'.blocks.Perm m.blocks) (halign : m'.align = m.align)
    (hnext : m'.next = m.next) (hsize : m.size ≤ m'.size) : Tiled m' where
  align_pos := halign ▸ h.align_pos
  apart := (hblocks.pairwise_iff fun h => Std.Symm.symm _ _ h).mpr h.apart
  multiple := fun b hb => halign ▸ h.multiple b (hblocks.mem_iff.mp hb)
  cover := fun a => by
    rw [halign, hnext, ← h.cover a]
    exact ⟨fun ⟨b, hb, hba⟩ => ⟨b, hblocks.mem_iff.mp hb, hba⟩,
      fun ⟨b, hb, hba⟩ => ⟨b, hblocks.mem_iff.mpr hb, hba⟩⟩
  align_dvd_next := by rw [halign, hnext]; exact h.align_dvd_next
  align_le_next := by rw [halign, hnext]; exact h.align_le_next
  reach := fun hne => by
    rw [hnext]
    exact Int.le_trans (h.reach fun hnil => hne (List.perm_nil.mp (hnil ▸ hblocks))) hsize

/-- A block may be added behind all others. -/
theorem Tiled.extend (h : Tiled m) {size : Int} (hmul : m.align ∣ size) (hpos : 0 < size)
    (hblocks : m'.blocks.Perm (⟨m.next, size⟩ :: m.blocks)) (halign : m'.align = m.align)
    (hnext : m'.next = m.next + size) (hsize : m'.next ≤ m'.size) : Tiled m' where
  align_pos := halign ▸ h.align_pos
  apart := by
    refine (hblocks.pairwise_iff fun h => Std.Symm.symm _ _ h).mpr
      (List.pairwise_cons.mpr ⟨?_, h.apart⟩)
    intro b hb
    exact .inr (h.within hb).2.1
  multiple := by
    intro b hb
    rw [halign]
    rcases List.mem_cons.mp (hblocks.mem_iff.mp hb) with rfl | hb
    · exact ⟨h.align_dvd_next, hmul, hpos⟩
    · exact h.multiple b hb
  cover := by
    intro a
    have hold := h.cover a
    have hle := h.align_le_next
    rw [halign, hnext]
    -- an offset is in the new block if it lies behind the old end
    constructor
    · rintro ⟨b, hb, hba⟩
      rcases List.mem_cons.mp (hblocks.mem_iff.mp hb) with rfl | hb
      · unfold Block.Holds at hba; dsimp only at hba; omega
      · have := hold.mp ⟨b, hb, hba⟩; omega
    · intro ha
      by_cases hlt : a < m.next
      · obtain ⟨b, hb, hba⟩ := hold.mpr ⟨ha.1, hlt⟩
        exact ⟨b, hblocks.mem_iff.mpr (List.mem_cons_of_mem _ hb), hba⟩
      · refine ⟨⟨m.next, size⟩, hblocks.mem_iff.mpr List.mem_cons_self, ?_⟩
        unfold Block.Holds; dsimp only; omega
  align_dvd_next := by rw [halign, hnext]; exact Int.dvd_add h.align_dvd_next hmul
  align_le_next := by have := h.align_le_next; rw [halign, hnext]; omega
  reach := fun _ => hsize

/-! ## Every operation keeps the tiling -/

/-- `m'` follows `m`: it is tiled, as long as `m` at least and aligned like it. -/
structure Follows (m m' : LinearMemory) : Prop where
  tiled : Tiled m'
  size : m.size ≤ m'.size
  align : m'.align = m.align

theorem Tiled.follows_self (h : Tiled m) : Follows m m := ⟨h, Int.le_refl _, rfl⟩

theorem Follows.trans {m₁ m₂ m₃ : LinearMemory} (h₁ : Follows m₁ m₂) (h₂ : Follows m₂ m₃) :
    Follows m₁ m₃ :=
  ⟨h₂.tiled, Int.le_trans h₁.size h₂.size, h₂.align.trans h₁.align⟩

/-- A block whose start is new to the live ones is put in front of them. -/
theorem setLive_eq {b : Block} (h : ∀ c ∈ m.live, c.start ≠ b.start) :
    m.setLive b = { m with live := b :: m.live } := by
  unfold setLive
  rw [List.filter_eq_self.mpr fun c hc => by simpa using h c hc]

/-- The freed block that a request takes starts at no live block. -/
theorem Tiled.taken_fresh (h : Tiled m) {before after : List Block} {b : Block}
    (hfreed : m.freed = before ++ b :: after) : ∀ c ∈ m.live, c.start ≠ b.start := by
  intro c hc heq
  have hb : b ∈ m.freed := by rw [hfreed]; simp
  have hcb := h.eq_of_start (mem_blocks.mpr (.inl hc)) (mem_blocks.mpr (.inr hb)) heq
  subst hcb
  exact (List.nodup_append.mp h.nodup).2.2 c hc c hb rfl

/-- The new block of a request starts at no live block. -/
theorem Tiled.next_fresh (h : Tiled m) : ∀ c ∈ m.live, c.start ≠ m.next := by
  intro c hc heq
  have hw := h.within (mem_blocks.mpr (.inl hc))
  have hpos := (h.multiple c (mem_blocks.mpr (.inl hc))).2.2
  omega

theorem follows_malloc (h : Tiled m) (length : Int) :
    Follows m (stateAfter (malloc length) m) := by
  rcases malloc_cases h.align_pos length with
    ⟨before, b, after, hfreed, _, _, hr⟩ | ⟨_, ⟨hsize, hr⟩ | ⟨e, hr⟩⟩
  · -- a freed block becomes live again
    have hlive := setLive_eq (m := { m with freed := before ++ after }) (h.taken_fresh hfreed)
    rw [stateAfter_orFail hr, hlive]
    refine ⟨h.perm ?_ rfl rfl (Int.le_refl _), Int.le_refl _, rfl⟩
    simp only [blocks, hfreed, List.cons_append, ← List.append_assoc]
    exact List.perm_middle.symm
  · -- a new block is added at the end
    rw [stateAfter_orFail hr, setLive_eq h.next_fresh]
    have hpos := h.align_pos
    have hle := m.align_le_blockSize length
    exact ⟨h.extend (align_dvd_blockSize h.align_pos length) (by omega) (List.Perm.refl _) rfl rfl
      (m.le_sizeWith _), hsize, rfl⟩
  · rw [stateAfter_error hr]; exact h.follows_self

/-- Giving back a block takes exactly this block from the live ones. -/
theorem Tiled.live_perm (h : Tiled m) {b : Block} (hb : b ∈ m.live) :
    m.live.Perm (b :: m.live.filter fun c => c.start ≠ b.start) := by
  have hnd : m.live.Nodup := (List.nodup_append.mp h.nodup).1
  have hfilter : m.live.filter (fun c => c.start ≠ b.start) = m.live.erase b := by
    rw [hnd.erase_eq_filter]
    refine List.filter_congr fun c hc => ?_
    by_cases hs : c.start = b.start
    · have := h.eq_of_start (mem_blocks.mpr (.inl hc)) (mem_blocks.mpr (.inl hb)) hs
      simp [this]
    · have : c ≠ b := fun heq => hs (heq ▸ rfl)
      simp [hs, this]
  rw [hfilter]
  exact List.perm_cons_erase hb

theorem follows_free (h : Tiled m) (fat : Int) : Follows m (stateAfter (free fat) m) := by
  rcases free_cases fat m with ⟨pointer, length, b, _, hb, hr⟩ | ⟨e, hr⟩
  · rw [stateAfter_ok hr]
    obtain ⟨hmem, rfl⟩ := h.blockAt?_eq_some.mp hb
    -- all blocks are still there, the one that was freed in another place
    refine ⟨h.perm ?_ rfl rfl (Int.le_refl _), Int.le_refl _, rfl⟩
    simp only [blocks, ← List.append_assoc]
    exact (List.perm_append_singleton b _).trans ((h.live_perm hmem).append_right m.freed).symm
  · rw [stateAfter_error hr]; exact h.follows_self

theorem follows_grow (h : Tiled m) (extra : Int) : Follows m (stateAfter (grow extra) m) := by
  rcases grow_cases extra m with ⟨hcount, hr⟩ | ⟨e, hr⟩
  · rw [stateAfter_ok hr]
    have hsize : m.size ≤ m.size + pageBytes extra := by omega
    exact ⟨h.perm (List.Perm.refl _) rfl rfl hsize, hsize, rfl⟩
  · rw [stateAfter_error hr]; exact h.follows_self

/-- Within a tiled memory writing through a live block never makes the memory longer. -/
theorem Tiled.overwrite_eq (h : Tiled m) {pointer : Int} {payload : List UInt8} {b : Block}
    (hb : b ∈ m.live) (hin : b.start ≤ pointer ∧ pointer + payload.length ≤ b.start + b.size) :
    m.overwrite pointer payload = m.setBytes pointer payload := by
  have hw := h.within (mem_blocks.mpr (.inl hb))
  have h1 : min pointer m.size = pointer := by omega
  have h2 : max m.size (pointer + payload.length) = m.size := by omega
  simp only [overwrite, h1, h2]; rfl

theorem follows_setBytes (h : Tiled m) (start : Int) (bytes : List UInt8) :
    Follows m (m.setBytes start bytes) :=
  ⟨h.perm (List.Perm.refl _) rfl rfl (Int.le_refl _), Int.le_refl _, rfl⟩

theorem follows_write (h : Tiled m) (fat : Int) (payload : List UInt8) :
    Follows m (stateAfter (write fat payload) m) := by
  rcases write_cases fat payload m with ⟨pointer, _, _, _, ⟨b, hb, hin⟩, hr⟩ | ⟨e, hr⟩
  · rw [stateAfter_ok hr, h.overwrite_eq hb hin]
    exact follows_setBytes h _ _
  · rw [stateAfter_error hr]; exact h.follows_self

theorem follows_writeWord (h : Tiled m) (offset value : Int) :
    Follows m (stateAfter (writeWord offset value) m) := by
  rcases writeWord_cases offset value m with hr | ⟨start, bytes, _, _, hr⟩
  · rw [hr]; exact h.follows_self
  · rw [hr]; exact follows_setBytes h _ _

/-! ## What a returning request has done -/

/-- A request for `length` bytes has returned a pointer to the block `b`. -/
structure Granted (m m' : LinearMemory) (length fat : Int) (b : Block) : Prop where
  packs : Packs fat b.start length
  room : length ≤ b.size
  /-- The block is new to the live ones. -/
  fresh : ∀ c ∈ m.live, c.start ≠ b.start
  live : m'.live = b :: m.live
  /-- No byte has changed. -/
  bytes : m'.byteAt = m.byteAt
  follows : Follows m m'

theorem granted_of_malloc (h : Tiled m) {length fat : Int}
    (hr : malloc length m = .ok fat m') : ∃ b, Granted m m' length fat b := by
  have hfollows : Follows m m' := by rw [← stateAfter_ok hr]; exact follows_malloc h length
  have hlength := le_blockSize h.align_pos length
  have hpack : ∀ {b : Block} {m₁ : LinearMemory},
      orFail (pack b.start length) m₁ = .ok fat m' → Packs fat b.start length ∧ m₁ = m' := by
    intro b m₁ hp
    obtain ⟨hpacks, hm₁⟩ := orFail_eq_ok_iff.mp hp
    exact ⟨pack_eq_ok_iff.mp hpacks, hm₁⟩
  rcases malloc_cases h.align_pos length with
    ⟨before, b, after, hfreed, _, hb, he⟩ | ⟨_, ⟨hsize, he⟩ | ⟨e, he⟩⟩
  · -- the block was given back before
    have hfresh := h.taken_fresh hfreed
    rw [setLive_eq (m := { m with freed := before ++ after }) hfresh] at he
    obtain ⟨hp, rfl⟩ := hpack (he.symm.trans hr)
    exact ⟨b, hp, by omega, hfresh, rfl, rfl, hfollows⟩
  · -- the block stands behind all others
    rw [setLive_eq h.next_fresh] at he
    obtain ⟨hp, rfl⟩ := hpack (b := ⟨m.next, m.blockSize length⟩) (he.symm.trans hr)
    exact ⟨_, hp, hlength, h.next_fresh, rfl, rfl, hfollows⟩
  · rw [hr] at he; cases he

/-- Offset zero is never handed out. -/
theorem Granted.start_pos {length fat : Int} {b : Block} (h : Granted m m' length fat b) :
    0 < b.start := by
  have hb : b ∈ m'.blocks := mem_blocks.mpr (.inl (by rw [h.live]; exact List.mem_cons_self))
  have := (h.follows.tiled.within hb).1
  have := h.follows.tiled.align_pos
  omega

/-! ## Giving back a live block -/

/-- The memory with a live block given back. -/
def giveBack (m : LinearMemory) (b : Block) : LinearMemory :=
  { m with live := m.live.filter fun c => c.start ≠ b.start, freed := m.freed ++ [b] }

@[simp] theorem byteAt_giveBack (m : LinearMemory) (b : Block) :
    (m.giveBack b).byteAt = m.byteAt := rfl

/-- All live blocks stay but the one that starts there. -/
theorem mem_live_giveBack {b c : Block} :
    c ∈ (m.giveBack b).live ↔ c ∈ m.live ∧ c.start ≠ b.start := by
  simp [giveBack]

theorem free_live (h : Tiled m) {b : Block} (hb : b ∈ m.live) {fat length : Int}
    (hfat : Packs fat b.start length) : free fat m = .ok () (m.giveBack b) := by
  have hblock : m.blockAt? b.start = some b := h.blockAt?_eq_some.mpr ⟨hb, rfl⟩
  simp [free, unpack_eq_ok_iff.mpr hfat, hblock, giveBack]

theorem follows_giveBack (h : Tiled m) {b : Block} (hb : b ∈ m.live) {fat length : Int}
    (hfat : Packs fat b.start length) : Follows m (m.giveBack b) := by
  rw [← stateAfter_ok (free_live h hb hfat)]
  exact follows_free h fat

/-! ## Runs -/

/-- A call of one of the operations on the memory. -/
inductive Call where
  | malloc (length : Int)
  | free (fat : Int)
  | read (fat : Int)
  | write (fat : Int) (payload : List UInt8)
  | grow (extra : Int)
  | readWord (offset : Int)
  | writeWord (offset value : Int)

/-- The memory after a call, whether the call returns or fails. Reading leaves it as it is. -/
def Call.after : Call → LinearMemory → LinearMemory
  | malloc length, m => stateAfter (LinearMemory.malloc length) m
  | free fat, m => stateAfter (LinearMemory.free fat) m
  | read _, m => m
  | write fat payload, m => stateAfter (LinearMemory.write fat payload) m
  | grow extra, m => stateAfter (LinearMemory.grow extra) m
  | readWord _, m => m
  | writeWord offset value, m => stateAfter (LinearMemory.writeWord offset value) m

/-- The memory after several calls, one after the other. -/
def run (m : LinearMemory) (calls : List Call) : LinearMemory :=
  calls.foldl (fun m call => call.after m) m

theorem follows_after (h : Tiled m) (call : Call) : Follows m (call.after m) := by
  cases call with
  | malloc length => exact follows_malloc h length
  | free fat => exact follows_free h fat
  | read fat => exact h.follows_self
  | write fat payload => exact follows_write h fat payload
  | grow extra => exact follows_grow h extra
  | readWord offset => exact h.follows_self
  | writeWord offset value => exact follows_writeWord h offset value

/-- **The tiling is kept by every run.** -/
theorem follows_run (h : Tiled m) (calls : List Call) : Follows m (m.run calls) := by
  induction calls generalizing m with
  | nil => exact h.follows_self
  | cons call calls ih =>
    have hcall := follows_after h call
    exact hcall.trans (ih hcall.tiled)

theorem run_append (m : LinearMemory) (calls more : List Call) :
    m.run (calls ++ more) = (m.run calls).run more := List.foldl_append

/--
**No byte belongs to two buffers.**

After any calls on a fresh memory, whether they returned or failed, the live and
the freed blocks are disjoint, none of them occurs twice, and together they hold
exactly the offsets from the alignment up to the next new block. They consist of
whole multiples of the alignment and lie within the memory, which never gets
shorter. What a request returns never points to offset zero.
-/
theorem blocks_tile {size align : Int} (halign : 1 ≤ align) {fresh : LinearMemory}
    (hfresh : create size align = .ok fresh) (calls : List Call) :
    ((fresh.run calls).live ++ (fresh.run calls).freed).Pairwise
        (fun b c => ∀ a, ¬ (b.Holds a ∧ c.Holds a))
      ∧ ((fresh.run calls).live ++ (fresh.run calls).freed).Nodup
      ∧ (∀ a, (∃ b ∈ (fresh.run calls).live ++ (fresh.run calls).freed, b.Holds a)
          ↔ align ≤ a ∧ a < (fresh.run calls).next)
      ∧ (∀ b ∈ (fresh.run calls).live ++ (fresh.run calls).freed,
          align ∣ b.start ∧ align ∣ b.size ∧ 0 < b.size ∧ b.start ≠ 0)
      ∧ ((fresh.run calls).live ++ (fresh.run calls).freed ≠ [] →
          (fresh.run calls).next ≤ (fresh.run calls).size)
      ∧ (∀ more, (fresh.run calls).size ≤ (fresh.run (calls ++ more)).size)
      ∧ ∀ length fat after, malloc length (fresh.run calls) = .ok fat after →
          ∃ pointer, Packs fat pointer length ∧ pointer ≠ 0 := by
  have hrun := follows_run (tiled_create halign hfresh) calls
  have htiled := hrun.tiled
  have halign' : (fresh.run calls).align = align := by
    rw [hrun.align]
    obtain ⟨u, -, hm⟩ := Outcome.bind_eq_ok.mp hfresh
    cases hm; rfl
  refine ⟨?_, htiled.nodup, ?_, ?_, htiled.reach, ?_, ?_⟩
  · exact htiled.apart.imp fun hbc a ⟨hb, hc⟩ => hbc.not_both hb hc
  · intro a; rw [← halign']; exact htiled.cover a
  · intro b hb
    have hw := htiled.within hb
    have hm := htiled.multiple b hb
    rw [halign'] at hw hm
    exact ⟨hm.1, hm.2.1, hm.2.2, by omega⟩
  · intro more
    rw [run_append]
    exact (follows_run htiled more).size
  · intro length fat after hr
    obtain ⟨b, hb⟩ := granted_of_malloc htiled hr
    exact ⟨b.start, hb.packs, by have := hb.start_pos; omega⟩

/-- A block that was given back and one whose request failed are part of the tiling too. -/
theorem blocks_tile_failed_request :
    let fresh : LinearMemory :=
      { byteAt := fun _ => 0, size := 0, align := 8, next := 8, live := [], freed := [] }
    let after := fresh.run [.malloc 12, .malloc (-1), .free 34359738380]
    (1 : Int) ≤ 8 ∧ create 0 8 = .ok fresh
      ∧ after.live ++ after.freed = [⟨24, 8⟩, ⟨8, 16⟩] ∧ after.next = 32
      ∧ ∀ a, (∃ b ∈ after.live ++ after.freed, b.Holds a) ↔ 8 ≤ a ∧ a < after.next := by
  intro fresh after
  have halign : (1 : Int) ≤ 8 := by decide
  have hfresh : create 0 8 = .ok fresh := rfl
  have htile := blocks_tile halign hfresh [.malloc 12, .malloc (-1), .free 34359738380]
  have hblocks : after.live ++ after.freed = [⟨24, 8⟩, ⟨8, 16⟩] := by decide +kernel
  have hnext : after.next = 32 := by decide +kernel
  exact ⟨halign, hfresh, hblocks, hnext, htile.2.2.1⟩

end LinearMemory

end WasmBridge
