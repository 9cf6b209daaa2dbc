import WasmBridge.Proofs.Memory.Bytes
import WasmBridge.Proofs.Memory.FatPtr

/-!
# What each operation on the memory does

One lemma for each operation lists all its outcomes: what it returns, what it
leaves behind, and under which conditions. Whatever is proved about memory is
proved from these lists, so no other proof takes an operation apart.

The lists say nothing about how blocks lie. A request that fails may still have
changed the memory: a length that does not fit a fat pointer is noticed only
when its block is live already.
-/

namespace WasmBridge.LinearMemory

open FatPtr

variable {m m' : LinearMemory}

/-! ## Rounding -/

/-- The size of the block that a request for `length` bytes asks for. -/
def blockSize (m : LinearMemory) (length : Int) : Int := max (m.round length) m.align

theorem round_eq (halign : 0 < m.align) (length : Int) :
    m.round length = (length + m.align - 1) / m.align * m.align := by
  unfold round; rw [Int.fdiv_eq_ediv_of_nonneg _ (by omega)]

theorem le_round (halign : 0 < m.align) (length : Int) : length ≤ m.round length := by
  have h1 := Int.mul_ediv_add_emod (length + m.align - 1) m.align
  have h2 := Int.emod_lt_of_pos (length + m.align - 1) halign
  rw [round_eq halign, Int.mul_comm]; omega

theorem le_blockSize (halign : 0 < m.align) (length : Int) : length ≤ m.blockSize length := by
  have := le_round halign length
  unfold blockSize; omega

theorem align_le_blockSize (m : LinearMemory) (length : Int) : m.align ≤ m.blockSize length := by
  unfold blockSize; omega

/-- Blocks are whole multiples of the alignment. -/
theorem align_dvd_blockSize (halign : 0 < m.align) (length : Int) :
    m.align ∣ m.blockSize length := by
  unfold blockSize
  rcases Int.le_total (m.round length) m.align with h | h
  · exact ⟨1, by rw [Int.max_eq_right h, Int.mul_one]⟩
  · rw [Int.max_eq_left h, round_eq halign]; exact Int.dvd_mul_left _ _

/-! ## Growing -/

/-- The bytes in as many whole pages as hold `extra` bytes. -/
def pageBytes (extra : Int) : Int := -Int.fdiv (-extra) pageSize * pageSize

theorem le_pageBytes (extra : Int) : extra ≤ pageBytes extra := by
  have h1 := Int.mul_ediv_add_emod (-extra) pageSize
  have h2 := Int.emod_nonneg (-extra) (show pageSize ≠ 0 by decide)
  unfold pageBytes
  rw [Int.fdiv_eq_ediv_of_nonneg _ (by decide), Int.neg_mul, Int.mul_comm]; omega

theorem checkGrowth_nonneg {size count : Int} (h : checkGrowth size count = .ok ()) :
    0 ≤ count := by
  unfold checkGrowth at h
  split at h
  · simp at h
  · split at h
    · simp at h
    · omega

theorem grow_eq (extra : Int) (m : LinearMemory) :
    grow extra m = match checkGrowth m.size (pageBytes extra) with
      | .ok _ => .ok () { m with size := m.size + pageBytes extra }
      | .error e => .error e m := by
  simp only [grow, Operation.bind_apply, Operation.get_apply, pageBytes]
  cases checkGrowth m.size (-Int.fdiv (-extra) pageSize * pageSize) <;> simp

/-- Growing adds whole pages or fails and changes nothing. -/
theorem grow_cases (extra : Int) (m : LinearMemory) :
    (0 ≤ pageBytes extra ∧ grow extra m = .ok () { m with size := m.size + pageBytes extra })
      ∨ ∃ e, grow extra m = .error e m := by
  cases h : checkGrowth m.size (pageBytes extra) with
  | ok u => exact .inl ⟨checkGrowth_nonneg h, by rw [grow_eq, h]⟩
  | error e => exact .inr ⟨e, by rw [grow_eq, h]⟩

/-! ## Requests -/

/-- The freed block that is taken is the earliest one that is large enough. -/
theorem takeFreed?_eq_some {size : Int} {b : Block} :
    ∀ {freed others : List Block}, takeFreed? size freed = some (b, others) →
      ∃ before after, freed = before ++ b :: after ∧ others = before ++ after
        ∧ (∀ c ∈ before, c.size < size) ∧ size ≤ b.size := by
  intro freed
  induction freed with
  | nil => intro others h; simp [takeFreed?] at h
  | cons c rest ih =>
    intro others h
    rw [takeFreed?] at h
    split at h
    · rename_i hc
      simp only [Option.some.injEq, Prod.mk.injEq] at h
      obtain ⟨rfl, rfl⟩ := h
      exact ⟨[], rest, rfl, rfl, by simp, hc⟩
    · rename_i hc
      obtain ⟨⟨b', others'⟩, hrest, heq⟩ := Option.map_eq_some_iff.mp h
      simp only [Prod.mk.injEq] at heq
      obtain ⟨rfl, rfl⟩ := heq
      obtain ⟨before, after, rfl, rfl, hbefore, hb⟩ := ih hrest
      refine ⟨c :: before, after, rfl, rfl, ?_, hb⟩
      intro d hd
      rcases List.mem_cons.mp hd with rfl | hd
      · omega
      · exact hbefore d hd

/-- Without a freed block to take all of them are too small. -/
theorem takeFreed?_eq_none {size : Int} {freed : List Block}
    (h : takeFreed? size freed = none) : ∀ c ∈ freed, c.size < size := by
  induction freed with
  | nil => simp
  | cons c rest ih =>
    rw [takeFreed?] at h
    split at h
    · simp at h
    · rename_i hc
      intro d hd
      rcases List.mem_cons.mp hd with rfl | hd
      · omega
      · exact ih (Option.map_eq_none_iff.mp h) d hd

/-- The size of the memory once a new block of `size` bytes is put behind all others. -/
def sizeWith (m : LinearMemory) (size : Int) : Int :=
  if m.size < m.next + size then m.size + pageBytes (m.next + size - m.size) else m.size

theorem le_sizeWith (m : LinearMemory) (size : Int) : m.next + size ≤ m.sizeWith size := by
  have := le_pageBytes (m.next + size - m.size)
  unfold sizeWith; split <;> omega

theorem allocate_eq (size : Int) (m : LinearMemory) :
    allocate size m = match takeFreed? size m.freed with
      | some (b, others) => .ok b { m with freed := others }
      | none =>
        match (if m.size < m.next + size then grow (m.next + size - m.size) else pure ()) m with
        | .ok _ m' => .ok ⟨m.next, size⟩ { m' with next := m'.next + size }
        | .error e m' => .error e m' := by
  simp only [allocate, Operation.bind_apply, Operation.get_apply]
  cases takeFreed? size m.freed with
  | some found => rfl
  | none =>
    by_cases hgrow : m.size < m.next + size
    · simp only [if_pos hgrow, Operation.bind_apply, Operation.modify_apply]
      cases grow (m.next + size - m.size) m <;> rfl
    · simp only [if_neg hgrow]
      rfl

theorem malloc_eq (halign : 0 < m.align) (length : Int) :
    malloc length m = match allocate (m.blockSize length) m with
      | .ok b m' => orFail (pack b.start length) (m'.setLive b)
      | .error e m' => .error e m' := by
  have hzero : m.align ≠ 0 := by omega
  simp only [malloc, Operation.bind_apply, Operation.get_apply, if_neg hzero,
    Operation.modify_apply, blockSize]
  cases allocate (max (m.round length) m.align) m <;> rfl

/--
A request takes the earliest freed block that is large enough, or puts a new
block behind all others, or fails for want of room and changes nothing. Only
then is the fat pointer made, so a request whose length does not fit one fails
with its block live.
-/
theorem malloc_cases (halign : 0 < m.align) (length : Int) :
    (∃ before b after, m.freed = before ++ b :: after
        ∧ (∀ c ∈ before, c.size < m.blockSize length) ∧ m.blockSize length ≤ b.size
        ∧ malloc length m =
          orFail (pack b.start length) ({ m with freed := before ++ after }.setLive b))
      ∨ ((∀ c ∈ m.freed, c.size < m.blockSize length)
        ∧ ((m.size ≤ m.sizeWith (m.blockSize length)
            ∧ malloc length m = orFail (pack m.next length)
              ({ m with size := m.sizeWith (m.blockSize length),
                        next := m.next + m.blockSize length }.setLive
                ⟨m.next, m.blockSize length⟩))
          ∨ ∃ e, malloc length m = .error e m)) := by
  rw [malloc_eq halign, allocate_eq]
  cases htake : takeFreed? (m.blockSize length) m.freed with
  | some found =>
    obtain ⟨b, others⟩ := found
    obtain ⟨before, after, hfreed, rfl, hbefore, hb⟩ := takeFreed?_eq_some htake
    exact .inl ⟨before, b, after, hfreed, hbefore, hb, rfl⟩
  | none =>
    refine .inr ⟨takeFreed?_eq_none htake, ?_⟩
    unfold sizeWith
    by_cases hroom : m.size < m.next + m.blockSize length
    · rw [if_pos hroom]
      rcases grow_cases (m.next + m.blockSize length - m.size) m with ⟨hcount, hg⟩ | ⟨e, hg⟩
      · exact .inl ⟨by omega, by simp only [if_pos hroom, hg]⟩
      · exact .inr ⟨e, by simp only [if_pos hroom, hg]⟩
    · rw [if_neg hroom]
      exact .inl ⟨Int.le_refl _, by simp only [if_neg hroom]; rfl⟩

/-! ## Giving back, reading and writing -/

/-- Giving back moves the block that the pointer starts at behind the freed ones. -/
theorem free_cases (fat : Int) (m : LinearMemory) :
    (∃ pointer length b, Packs fat pointer length ∧ m.blockAt? pointer = some b
        ∧ free fat m = .ok () { m with
            live := m.live.filter fun c => c.start ≠ pointer
            freed := m.freed ++ [b] })
      ∨ ∃ e, free fat m = .error e m := by
  simp only [free, Operation.bind_apply]
  cases hfat : unpack fat with
  | error e => exact .inr ⟨e, by simp⟩
  | ok parts =>
    obtain ⟨pointer, length⟩ := parts
    cases hb : m.blockAt? pointer with
    | none => exact .inr ⟨_, by simp [hb]; rfl⟩
    | some b => exact .inl ⟨pointer, length, b, unpack_eq_ok_iff.mp hfat, hb, by simp [hb]⟩

/-- The bytes lie within one live block. -/
theorem check_eq_ok_iff {pointer length : Int} :
    m.check pointer length = .ok ()
      ↔ ∃ b ∈ m.live, b.start ≤ pointer ∧ pointer + length ≤ b.start + b.size := by
  unfold check
  simp only [List.any_eq_true, decide_eq_true_eq]
  split
  · rename_i h; exact ⟨fun _ => h, fun _ => rfl⟩
  · rename_i h; exact ⟨fun hc => by simp at hc, fun hc => absurd hc h⟩

/-- Reading gives the bytes of a buffer within one live block. -/
theorem read_eq_ok_iff {fat : Int} {payload : List UInt8} :
    m.read fat = .ok payload
      ↔ ∃ pointer length, Packs fat pointer length
        ∧ (∃ b ∈ m.live, b.start ≤ pointer ∧ pointer + length ≤ b.start + b.size)
        ∧ payload = m.bytesFrom pointer length.toNat := by
  simp only [read, Outcome.bind_eq_ok]
  constructor
  · rintro ⟨⟨pointer, length⟩, hfat, ⟨⟩, hcheck, hbytes⟩
    exact ⟨pointer, length, unpack_eq_ok_iff.mp hfat, check_eq_ok_iff.mp hcheck,
      (Except.ok.inj hbytes).symm⟩
  · rintro ⟨pointer, length, hfat, hcheck, rfl⟩
    exact ⟨(pointer, length), unpack_eq_ok_iff.mpr hfat, (), check_eq_ok_iff.mpr hcheck, rfl⟩

/-- Writing changes the bytes of a buffer within one live block, or fails and changes nothing. -/
theorem write_cases (fat : Int) (payload : List UInt8) (m : LinearMemory) :
    (∃ pointer length, Packs fat pointer length ∧ payload.length ≤ length
        ∧ (∃ b ∈ m.live, b.start ≤ pointer ∧ pointer + payload.length ≤ b.start + b.size)
        ∧ write fat payload m = .ok () (m.overwrite pointer payload))
      ∨ ∃ e, write fat payload m = .error e m := by
  simp only [write, Operation.bind_apply]
  cases hfat : unpack fat with
  | error e => exact .inr ⟨e, by simp⟩
  | ok parts =>
    obtain ⟨pointer, length⟩ := parts
    by_cases hlength : length < payload.length
    · exact .inr ⟨_, by simp [hlength]; rfl⟩
    · cases hcheck : m.check pointer payload.length with
      | error e => exact .inr ⟨e, by simp [hlength, hcheck]⟩
      | ok u =>
        refine .inl ⟨pointer, length, unpack_eq_ok_iff.mp hfat, by omega,
          check_eq_ok_iff.mp hcheck, ?_⟩
        simp [hlength, hcheck]

/-- Writing a word changes at most its four bytes, also when it fails. -/
theorem writeWord_cases (offset value : Int) (m : LinearMemory) :
    stateAfter (writeWord offset value) m = m
      ∨ ∃ start bytes, bytes.length = 4 ∧ m.wordStart offset = .ok start
        ∧ stateAfter (writeWord offset value) m = m.setBytes start bytes := by
  by_cases hidx : isIndex offset
  · cases hstart : m.wordStart offset with
    | error e => exact .inl (stateAfter_error (e := e) (by simp [writeWord, hidx, hstart]))
    | ok start =>
      refine .inr ⟨start, ?_⟩
      by_cases hvalue : value < 0 ∨ 0x100000000 ≤ value
      · exact ⟨[0, 0, 0, 0], rfl, rfl,
          stateAfter_error (e := .wordAccess) (by simp [writeWord, hidx, hstart, hvalue])⟩
      · exact ⟨bytesOfWord value, length_bytesOfWord value, rfl,
          stateAfter_ok (a := ()) (by simp [writeWord, hidx, hstart, hvalue])⟩
  · exact .inl (stateAfter_error (e := .writeOffsetRange) (by simp [writeWord, hidx]))

end WasmBridge.LinearMemory
