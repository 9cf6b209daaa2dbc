import WasmBridge.Memory.Transfer
import WasmBridge.Proofs.Memory.Stale
import WasmBridge.Proofs.Wire.Packed

/-!
# Passing values through memory

A value that is handed over is packed before a buffer is requested, and a buffer is
read and given back before its bytes are looked into. So whoever cannot pack leaves the
memory as it was, and whoever cannot make sense of the bytes has released the buffer
all the same.

In between the buffer is like any other: it keeps its bytes as long as it is left
alone. Once it is released its pointer is stale, and if the packing library packs no
value as no bytes at all, every further attempt to receive it is refused.
-/

namespace WasmBridge

open LinearMemory FatPtr

variable {m m' granted : LinearMemory} {b : Block} {fat : Int} {format : PackFormat}
  {types : TypeMap Text} {value : Value} {ident : TypeIdent} {payload : List UInt8}

/-- Some bytes have been put into a buffer of their own, beside what was live before. -/
structure HandedOver (m m' : LinearMemory) (payload : List UInt8) (fat : Int) (b : Block) :
    Prop where
  packs : Packs fat b.start payload.length
  room : payload.length ≤ b.size
  /-- The block is new to the live ones. -/
  fresh : ∀ c ∈ m.live, c.start ≠ b.start
  live : m'.live = b :: m.live
  read : m'.read fat = .ok payload
  /-- The other live blocks keep their bytes. -/
  bytes : ∀ c ∈ m.live, ∀ a, c.Holds a → m'.byteAt a = m.byteAt a

/-- A block has been given back, and all others are as they were. -/
structure Released (m m' : LinearMemory) (b : Block) : Prop where
  freed : m'.freed = m.freed ++ [b]
  live : ∀ c, c ∈ m'.live ↔ c ∈ m.live ∧ c ≠ b
  bytes : m'.byteAt = m.byteAt

/-! ## Handing over -/

/-- What cannot be packed does not reach the memory. -/
theorem exportValue_unpacked {e : CodecError} (h : encode format types value ident = .error e)
    (m : LinearMemory) : exportValue format types value ident m = .error (.codec e) m := by
  rw [exportValue, h]
  rfl

/-- No value is handed over as an empty buffer. -/
theorem encode_nonempty (hnonempty : format.NeverEmpty)
    (h : encode format types value ident = .ok payload) : 1 ≤ payload.length := by
  obtain ⟨wire, -, hpack⟩ := Outcome.bind_eq_ok.mp h
  cases hbytes : format.pack wire with
  | error e => rw [hbytes] at hpack; cases hpack
  | ok bytes =>
    rw [hbytes] at hpack
    cases hpack
    exact hnonempty wire _ hbytes

theorem exportValue_refused (h : encode format types value ident = .ok payload) {e : BoundaryError}
    (hmalloc : malloc payload.length m = .error e m') :
    exportValue format types value ident m = .error e m' := by
  simp [exportValue, h, hmalloc]

theorem exists_exportValue (ht : Tiled m) (h : encode format types value ident = .ok payload)
    (hmalloc : malloc payload.length m = .ok fat granted) :
    ∃ b m', exportValue format types value ident m = .ok fat m' ∧ Tiled m'
      ∧ HandedOver m m' payload fat b := by
  obtain ⟨b, hg⟩ := granted_of_malloc ht hmalloc
  have hwrite := write_buffer hg.follows.tiled hg.buffer
  have hb : Buffer (granted.setBytes b.start payload) fat payload.length b :=
    hg.buffer.keep hg.buffer.mem
  refine ⟨b, granted.setBytes b.start payload, by simp [exportValue, h, hmalloc, hwrite],
    (follows_setBytes hg.follows.tiled _ _).tiled, hg.packs, hg.room, hg.fresh, hg.live, ?_, ?_⟩
  · rw [read_buffer hb, Int.toNat_natCast, bytesFrom_setBytes]
  · intro c hc a ha
    have hapart := hg.follows.tiled.live_apart hg.buffer.mem
      (by rw [hg.live]; exact List.mem_cons_of_mem _ hc) (hg.fresh c hc).symm
    have hroom := hg.room
    rw [← hg.bytes]
    refine byteAt_setBytes_outside ?_
    unfold Block.Apart Block.Holds at *
    omega

theorem HandedOver.buffer (h : HandedOver m m' payload fat b) :
    Buffer m' fat payload.length b :=
  ⟨h.packs, by rw [h.live]; exact List.mem_cons_self, h.room⟩

/-- A buffer that is left alone is read as what was put into it. -/
theorem HandedOver.read_later (h : HandedOver m m' payload fat b) (ht : Tiled m')
    {calls : List Call} (hleft : m'.LeftAlone b calls) :
    Buffer (m'.run calls) fat payload.length b ∧ (m'.run calls).read fat = .ok payload := by
  obtain ⟨hlive, hbytes⟩ := hleft.kept ht h.buffer.mem
  have hb := h.buffer.keep hlive
  have hroom := h.room
  refine ⟨hb, ?_⟩
  rw [← h.read, read_buffer hb, read_buffer h.buffer, Int.toNat_natCast,
    bytesFrom_congr fun a h0 h1 => hbytes a (by unfold Block.Holds; omega)]

/-! ## Receiving -/

theorem released_giveBack (ht : Tiled m) (hb : b ∈ m.live) : Released m (m.giveBack b) b where
  freed := rfl
  live := fun c => by
    rw [mem_live_giveBack]
    refine and_congr_right fun hc => not_congr ⟨fun hstart => ?_, congrArg _⟩
    exact ht.eq_of_start (mem_blocks.mpr (.inl hc)) (mem_blocks.mpr (.inl hb)) hstart
  bytes := rfl

/-- The buffer is released before its bytes are looked into. -/
theorem importValue_eq (ht : Tiled m) (hb : Buffer m fat payload.length b)
    (hread : m.read fat = .ok payload) (format : PackFormat) (types : TypeMap Text)
    (ident : TypeIdent) :
    importValue format types fat ident m
      = orFail ((decode format types payload ident).mapError .codec) (m.giveBack b) := by
  simp only [importValue, Operation.bind_apply, Operation.get_apply, hread, orFail_ok,
    free_live ht hb.mem hb.packs]
  cases decode format types payload ident <;> rfl

/-- Nothing is received through a stale pointer. -/
theorem importValue_stale (ht : Tiled m) (hb : b ∈ m.freed)
    (hfat : Packs fat b.start payload.length) (hpayload : 1 ≤ payload.length)
    (format : PackFormat) (types : TypeMap Text) (ident : TypeIdent) :
    importValue format types fat ident m = .error (.outsideLive payload.length b.start) m := by
  have hsome : ¬ ((payload.length : Int) = 0 ∧ m.Touched b) := fun h => by omega
  simp only [importValue, Operation.bind_apply, Operation.get_apply, read_freed ht hb hfat,
    if_neg hsome, orFail_error]

/--
**A value comes out of the memory as it comes out of its bytes.**

On a fresh memory anything is done before a value is handed over. If it cannot be
packed, or there is no buffer for its bytes, that is what handing it over fails with;
in the first case the memory is as it was. Otherwise its bytes are in a new block, and
all other live blocks are as they were.

As long as that block is left alone, whatever happens around it, receiving a value of
any type through the pointer comes out as the bytes do and, whether that is a value or
an error, releases the block and nothing else. After that nothing is received through
the pointer until something is requested, for a buffer of no bytes was never handed over.
-/
theorem value_passed {size align : Int} (halign : 1 ≤ align) {fresh : LinearMemory}
    (hfresh : create size align = .ok fresh) (before : List Call) (hm : fresh.run before = m)
    (format : PackFormat) (hnonempty : format.NeverEmpty) (types : TypeMap Text) (value : Value)
    (ident : TypeIdent) :
    (∀ e, encode format types value ident = .error e →
      exportValue format types value ident m = .error (.codec e) m)
    ∧ ∀ payload, encode format types value ident = .ok payload →
      (∀ e left, malloc payload.length m = .error e left →
        exportValue format types value ident m = .error e left)
      ∧ ∀ fat granted, malloc payload.length m = .ok fat granted →
        ∃ b sent, exportValue format types value ident m = .ok fat sent
          ∧ HandedOver m sent payload fat b
          ∧ ∀ calls now, sent.LeftAlone b calls → sent.run calls = now →
            ∃ left, Released now left b
              ∧ (∀ types' ident', importValue format types' fat ident' now
                = orFail ((decode format types' payload ident').mapError .codec) left)
              ∧ ∀ more later, (∀ n, Call.malloc n ∉ more) → left.run more = later →
                ∀ types' ident', importValue format types' fat ident' later
                  = .error (.outsideLive payload.length b.start) later := by
  have ht : Tiled m := by
    rw [← hm]; exact (follows_run (tiled_create halign hfresh) before).tiled
  refine ⟨fun e h => exportValue_unpacked h m, fun payload h => ⟨fun e left hmalloc =>
    exportValue_refused h hmalloc, fun fat granted hmalloc => ?_⟩⟩
  obtain ⟨b, sent, hexport, hsent, hover⟩ := exists_exportValue ht h hmalloc
  refine ⟨b, sent, hexport, hover, ?_⟩
  rintro calls now hleft rfl
  have hnow := (follows_run hsent calls).tiled
  obtain ⟨hb, hread⟩ := hover.read_later hsent hleft
  have hback := (follows_giveBack hnow hb.mem hb.packs).tiled
  have hreleased := released_giveBack hnow hb.mem
  refine ⟨_, hreleased, importValue_eq hnow hb hread format, ?_⟩
  rintro more later hmore rfl
  have hfreed : b ∈ ((sent.run calls).giveBack b).freed := by
    rw [hreleased.freed]; exact List.mem_append_right _ List.mem_cons_self
  exact importValue_stale (follows_run hback more).tiled (freed_run hback hfreed hmore)
    hover.packs (encode_nonempty hnonempty h) format

/-- A text is handed over in a block that was given back before, and received while others use
the memory. Asked for as a number its bytes are refused, and the block is released as well. -/
theorem value_passed_text :
    let fresh : LinearMemory :=
      { byteAt := fun _ => 0, size := 0, align := 8, next := 8, live := [], freed := [] }
    let m := fresh.run [.malloc 8, .malloc 20, .free 68719476756]
    let types : TypeMap Text := TypeMap.builtin
    let format := MessagePack.format
    let sent := stateAfter (exportValue format types (.str "hi") ⟨"String", []⟩) m
    let now := sent.run [.malloc 4, .write 171798691844 [1, 2, 3, 4], .grow 1]
    format.NeverEmpty
      ∧ exportValue format types (.str "hi") ⟨"String", []⟩ m = .ok 68719476739 sent
      ∧ sent.LeftAlone ⟨16, 24⟩ [.malloc 4, .write 171798691844 [1, 2, 3, 4], .grow 1]
      ∧ ∃ left, Released now left ⟨16, 24⟩
        ∧ importValue format types 68719476739 ⟨"String", []⟩ now = .ok (.str "hi") left
        ∧ (∃ e, importValue format types 68719476739 ⟨"u8", []⟩ now = .error (.codec e) left)
        ∧ importValue format types 68719476739 ⟨"String", []⟩ left
          = .error (.outsideLive 3 16) left := by
  intro fresh m types format sent now
  have halign : (1 : Int) ≤ 8 := by decide
  have hfresh : create 0 8 = .ok fresh := rfl
  have hm : fresh.run [.malloc 8, .malloc 20, .free 68719476756] = m := rfl
  have hencode : encode format types (.str "hi") ⟨"String", []⟩ = .ok [0xa2, 0x68, 0x69] := by
    decide +kernel
  have htext : decode format types [0xa2, 0x68, 0x69] ⟨"String", []⟩ = .ok (.str "hi") := by rfl
  have hnumber : (decode format types [0xa2, 0x68, 0x69] ⟨"u8", []⟩).isOk = false := by
    decide +kernel
  have hmalloc : malloc 3 m = .ok 68719476739 (stateAfter (malloc 3) m) :=
    eq_ok_of_outcome (by decide +kernel)
  have hexport : exportValue format types (.str "hi") ⟨"String", []⟩ m = .ok 68719476739 sent :=
    eq_ok_of_outcome (by decide +kernel)
  have hleft : sent.LeftAlone ⟨16, 24⟩ [.malloc 4, .write 171798691844 [1, 2, 3, 4], .grow 1] := by
    decide +kernel
  have hlive : sent.live = [⟨16, 24⟩, ⟨8, 8⟩] := by decide +kernel
  have hnow : sent.run [.malloc 4, .write 171798691844 [1, 2, 3, 4], .grow 1] = now := rfl
  clear_value now sent
  obtain ⟨b, sent', hexport', hover, hpassed⟩ :=
    ((value_passed halign hfresh _ hm format MessagePack.neverEmpty types (.str "hi")
      ⟨"String", []⟩).2 _ hencode).2 _ _ hmalloc
  rw [hexport, EStateM.Result.ok.injEq] at hexport'
  obtain ⟨-, rfl⟩ := hexport'
  obtain rfl : b = ⟨16, 24⟩ := by
    rw [hover.live] at hlive
    exact (List.cons.inj hlive).1
  obtain ⟨left, hreleased, hcome, hstale⟩ := hpassed _ now hleft hnow
  refine ⟨MessagePack.neverEmpty, hexport, hleft, left, hreleased, ?_, ?_,
    hstale [] left nofun rfl types _⟩
  · rw [hcome, htext]
    rfl
  · cases hdecode : decode format types [0xa2, 0x68, 0x69] ⟨"u8", []⟩ with
    | ok v => rw [hdecode] at hnumber; cases hnumber
    | error e => exact ⟨e, by rw [hcome, hdecode]; rfl⟩

end WasmBridge
