import WasmBridge.Proofs.Memory.Isolation

/-!
# Stale pointers

Whoever still has the pointer to a buffer that was given back is to be refused. No
block starts there any more, so nothing can be given back through it and it does not
count as allocated. Reading and writing go by another test: do the bytes lie within
some live block? By the tiling the bytes of a freed block never do. A stretch of no
bytes, though, lies within every block that ends where the freed one starts. So an
empty read and an empty write are let through exactly if the block in front of the
freed one is live.
-/

namespace WasmBridge.LinearMemory

open FatPtr

variable {m : LinearMemory} {b : Block} {fat length : Int}

/-- A live block ends where the block starts. -/
def Touched (m : LinearMemory) (b : Block) : Prop := ∃ c ∈ m.live, c.start + c.size = b.start

instance (m : LinearMemory) (b : Block) : Decidable (m.Touched b) :=
  inferInstanceAs (Decidable (∃ c ∈ m.live, _))

/-! ## Freed blocks -/

/-- No live block starts where a freed one does. -/
theorem Tiled.blockAt?_freed (h : Tiled m) (hb : b ∈ m.freed) : m.blockAt? b.start = none := by
  refine Option.eq_none_iff_forall_ne_some.mpr fun c hc => ?_
  obtain ⟨hlive, hstart⟩ := h.blockAt?_eq_some.mp hc
  have hsame := h.eq_of_start (mem_blocks.mpr (.inl hlive)) (mem_blocks.mpr (.inr hb)) hstart
  exact h.not_freed hlive (hsame ▸ hb)

/-- Where a freed block starts, only a stretch of no bytes lies within a live block, and only in one
that ends there. -/
theorem Tiled.check_freed (h : Tiled m) (hb : b ∈ m.freed) {count : Int} (h0 : 0 ≤ count) :
    m.check b.start count =
      if count = 0 ∧ m.Touched b then .ok () else .error (.outsideLive count b.start) := by
  have hpos := (h.multiple b (mem_blocks.mpr (.inr hb))).2.2
  have hsome : (∃ c ∈ m.live, c.start ≤ b.start ∧ b.start + count ≤ c.start + c.size)
      ↔ count = 0 ∧ m.Touched b := by
    constructor
    · rintro ⟨c, hc, hin⟩
      -- such a block ends where the freed one starts, or it would overlap it
      have hapart := h.freed_apart hb hc
      unfold Block.Apart at hapart
      exact ⟨by omega, c, hc, by omega⟩
    · rintro ⟨rfl, c, hc, hend⟩
      have hcpos := (h.multiple c (mem_blocks.mpr (.inl hc))).2.2
      exact ⟨c, hc, by omega⟩
  unfold check
  simp only [List.any_eq_true, decide_eq_true_eq, hsome]

theorem isAllocated_freed (h : Tiled m) (hb : b ∈ m.freed) (hfat : Packs fat b.start length) :
    m.isAllocated fat = .ok false := by
  simp [isAllocated, unpack_eq_ok_iff.mpr hfat, h.blockAt?_freed hb]

theorem free_freed (h : Tiled m) (hb : b ∈ m.freed) (hfat : Packs fat b.start length) :
    free fat m = .error (.freeUnallocated b.start) m := by
  simp [free, unpack_eq_ok_iff.mpr hfat, h.blockAt?_freed hb]

theorem read_freed (h : Tiled m) (hb : b ∈ m.freed) (hfat : Packs fat b.start length) :
    m.read fat =
      if length = 0 ∧ m.Touched b then .ok [] else .error (.outsideLive length b.start) := by
  simp only [LinearMemory.read, unpack_eq_ok_iff.mpr hfat, Outcome.bind_ok,
    h.check_freed hb hfat.2.1.1]
  by_cases hempty : length = 0 ∧ m.Touched b
  · obtain ⟨rfl, htouched⟩ := hempty
    simp [htouched, bytesFrom]
  · simp [hempty]

theorem write_freed (h : Tiled m) (hb : b ∈ m.freed) (hfat : Packs fat b.start length)
    {payload : List UInt8} (hroom : payload.length ≤ length) :
    write fat payload m = if payload = [] ∧ m.Touched b then .ok () m
      else .error (.outsideLive payload.length b.start) m := by
  have hshort : ¬ length < payload.length := by omega
  simp only [write, Operation.bind_apply, Operation.get_apply, unpack_eq_ok_iff.mpr hfat,
    orFail_ok, if_neg hshort, h.check_freed hb (Int.natCast_nonneg payload.length),
    Int.natCast_eq_zero, List.length_eq_zero_iff]
  by_cases hempty : payload = [] ∧ m.Touched b
  · obtain ⟨rfl, htouched⟩ := hempty
    simp [htouched, overwrite_nil]
  · simp [hempty]

/-! ## From being handed out on -/

/-- A block is never lost: it is live or freed after any calls. -/
theorem mem_blocks_run (h : Tiled m) (hb : b ∈ m.blocks) (calls : List Call) :
    b ∈ (m.run calls).blocks := by
  induction calls generalizing m with
  | nil => exact hb
  | cons call calls ih =>
    refine ih (follows_after h call).tiled ?_
    rcases mem_blocks.mp hb with hlive | hfreed
    · exact mem_blocks.mpr (live_after h hlive call)
    · exact mem_blocks.mpr ((freed_after h hfreed call).symm.imp And.right id)

/-- Whoever gives back the block at an offset has it freed. -/
theorem freed_of_free (h : Tiled m) (hb : b ∈ m.blocks) (hfat : Packs fat b.start length)
    {m' : LinearMemory} (hr : free fat m = .ok () m') : b ∈ m'.freed := by
  rcases mem_blocks.mp hb with hlive | hfreed
  · rw [free_live h hlive hfat, EStateM.Result.ok.injEq] at hr
    rw [← hr.2]
    exact List.mem_append_right _ List.mem_cons_self
  · rw [free_freed h hfreed hfat] at hr
    cases hr

/-- A freed block stays freed as long as nothing is requested. -/
theorem freed_run (h : Tiled m) (hb : b ∈ m.freed) {calls : List Call}
    (hcalls : ∀ n, Call.malloc n ∉ calls) : b ∈ (m.run calls).freed := by
  induction calls generalizing m with
  | nil => exact hb
  | cons call calls ih =>
    refine ih (follows_after h call).tiled ?_ fun n hn => hcalls n (List.mem_cons_of_mem _ hn)
    refine (freed_after h hb call).resolve_right ?_
    rintro ⟨⟨n, rfl⟩, -⟩
    exact hcalls n List.mem_cons_self

/--
**A pointer is refused while its block is freed.**

On a fresh memory anything is done until a request returns a pointer, and anything
afterwards. The block that the pointer leads to is live or freed all the time. It is
freed once somebody has given it back, through this pointer or through another one to
its start, and from then on until a request takes it again.

While it is freed the pointer does not count as allocated and giving it back fails.
Reading through it fails unless it is the pointer to an empty buffer, and writing what
fits the buffer fails unless there is nothing to write; those two are let through
exactly if a live block ends where the freed one starts. Nothing of this changes the
memory.
-/
theorem stale_pointer_refused {size align : Int} (halign : 1 ≤ align) {fresh : LinearMemory}
    (hfresh : create size align = .ok fresh) (before : List Call) {granted : LinearMemory}
    (hgranted : malloc length (fresh.run before) = .ok fat granted) :
    ∃ b ∈ granted.live, Packs fat b.start length ∧
      ∀ calls now, granted.run calls = now →
        (b ∈ now.live ∨ b ∈ now.freed)
        ∧ (∀ other n later, Packs other b.start n → free other now = .ok () later →
            b ∈ later.freed)
        ∧ (b ∈ now.freed →
            now.isAllocated fat = .ok false
            ∧ free fat now = .error (.freeUnallocated b.start) now
            ∧ now.read fat = (if length = 0 ∧ now.Touched b then .ok []
                else .error (.outsideLive length b.start))
            ∧ (∀ payload : List UInt8, payload.length ≤ length →
                write fat payload now = if payload = [] ∧ now.Touched b then .ok () now
                  else .error (.outsideLive payload.length b.start) now)
            ∧ ∀ call : Call, b ∈ (call.after now).freed
                ∨ (∃ n, call = .malloc n) ∧ b ∈ (call.after now).live) := by
  obtain ⟨b, hg⟩ := granted_of_malloc
    (follows_run (tiled_create halign hfresh) before).tiled hgranted
  refine ⟨b, hg.buffer.mem, hg.packs, ?_⟩
  rintro calls now rfl
  have ht := (follows_run hg.follows.tiled calls).tiled
  have hmem := mem_blocks_run hg.follows.tiled (mem_blocks.mpr (.inl hg.buffer.mem)) calls
  refine ⟨mem_blocks.mp hmem, fun _ _ _ hother hr => freed_of_free ht hmem hother hr, fun hb => ?_⟩
  exact ⟨isAllocated_freed ht hb hg.packs, free_freed ht hb hg.packs, read_freed ht hb hg.packs,
    fun _ hroom => write_freed ht hb hg.packs hroom, freed_after ht hb⟩

/-- An empty buffer behind a live block can still be read after it was given back. -/
theorem stale_pointer_refused_empty :
    let fresh : LinearMemory :=
      { byteAt := fun _ => 0, size := 0, align := 8, next := 8, live := [], freed := [] }
    let granted := stateAfter (malloc 0) (fresh.run [.malloc 8])
    let now := granted.run [.free 68719476736]
    malloc 0 (fresh.run [.malloc 8]) = .ok 68719476736 granted
      ∧ now.isAllocated 68719476736 = .ok false
      ∧ free 68719476736 now = .error (.freeUnallocated 16) now
      ∧ now.read 68719476736 = .ok [] := by
  intro fresh granted now
  have halign : (1 : Int) ≤ 8 := by decide
  have hfresh : create 0 8 = .ok fresh := rfl
  have hgranted : malloc 0 (fresh.run [.malloc 8]) = .ok 68719476736 granted :=
    eq_ok_of_outcome (by decide +kernel)
  have hlive : granted.live = [⟨16, 8⟩, ⟨8, 8⟩] := by decide +kernel
  have hnow : now.freed = [⟨16, 8⟩] ∧ now.Touched ⟨16, 8⟩ := by decide +kernel
  have hrun : granted.run [.free 68719476736] = now := rfl
  clear_value now granted
  obtain ⟨b, hb, hpacks, hstale⟩ := stale_pointer_refused halign hfresh _ hgranted
  obtain ⟨hstart, -⟩ := hpacks.unique (show Packs 68719476736 16 0 by decide)
  obtain rfl : b = ⟨16, 8⟩ := by
    rw [hlive] at hb
    rcases List.mem_pair.mp hb with rfl | rfl
    · rfl
    · cases hstart
  have hfreed : ⟨16, 8⟩ ∈ now.freed := by rw [hnow.1]; exact List.mem_cons_self
  obtain ⟨hallocated, hfree, hread, -⟩ := (hstale _ now hrun).2.2 hfreed
  rw [if_pos ⟨rfl, hnow.2⟩] at hread
  exact ⟨hgranted, hallocated, hfree, hread⟩

end WasmBridge.LinearMemory
