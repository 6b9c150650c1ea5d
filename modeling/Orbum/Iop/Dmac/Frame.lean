import Orbum.Iop.Dmac.Turn

/-!
# What a turn of a channel leaves alone

A turn of one channel leaves the registers of the others alone, and a turn of any but the two channels of the SIO2
leaves the serial interfaces alone. A channel whose queue is empty moves nothing from it.
-/

namespace Orbum

open LittleEndian

namespace IopDmac

/-- The serial interfaces, and what is recorded of the channels of the SIO2. -/
structure Serial (s s' : IopDmac) : Prop where
  /-- `sio`. -/
  sio : s'.sio = s.sio
  /-- What channel 11 has read. -/
  read : s'.read = s.read
  /-- What channel 12 has stored. -/
  stored : s'.stored = s.stored

/-- What a turn of channel `k` leaves alone. -/
structure Frame (k : Fin 13) (s s' : IopDmac) : Prop where
  /-- The other channels. -/
  channels : ∀ j, j ≠ k → s'.channels j = s.channels j
  /-- Which channels are enabled. -/
  enabled : s'.gctrl = s.gctrl ∧ s'.pcr0 = s.pcr0 ∧ s'.pcr1 = s.pcr1
  /-- `CHCR`, but that the transfer may end. -/
  chcr : (s'.channels k).chcr.w = (s.channels k).chcr.w ∨ (s'.channels k).chcr.started = false
  /-- The serial interfaces, if they are not the peripheral of the channel. -/
  serial : k ≠ 11 → k ≠ 12 → Serial s s'

variable {s s' s'' : IopDmac} {k : Fin 13}

theorem Serial.refl (s : IopDmac) : Serial s s := ⟨rfl, rfl, rfl⟩

theorem Serial.trans (h : Serial s s') (h' : Serial s' s'') : Serial s s'' :=
  ⟨h'.sio.trans h.sio, h'.read.trans h.read, h'.stored.trans h.stored⟩

theorem Frame.refl (k : Fin 13) (s : IopDmac) : Frame k s s :=
  ⟨fun _ _ => rfl, ⟨rfl, rfl, rfl⟩, .inl rfl, fun _ _ => .refl s⟩

theorem Frame.trans (h : Frame k s s') (h' : Frame k s' s'') : Frame k s s'' where
  channels j hj := (h'.channels j hj).trans (h.channels j hj)
  enabled := ⟨h'.enabled.1.trans h.enabled.1, h'.enabled.2.1.trans h.enabled.2.1, h'.enabled.2.2.trans h.enabled.2.2⟩
  chcr := by
    rcases h'.chcr with hw' | hstop
    · rcases h.chcr with hw | hstop
      · exact .inl (hw'.trans hw)
      · refine .inr ?_
        rw [IopDmacChcr.started, hw']
        exact hstop
    · exact .inr hstop
  serial h11 h12 := (h.serial h11 h12).trans (h'.serial h11 h12)

/-! ### Writes -/

/-- No channel but 11 and 12 has a queue of the SIO2. -/
theorem dmaFifoQueue_ne : ∀ {k : Fin 13}, k ≠ 11 → k ≠ 12 → dmaFifoQueue k ≠ .tosio2 ∧ dmaFifoQueue k ≠ .fromsio2 := by
  decide

@[simp] theorem setFifo_channels (s : IopDmac) (f : IopFifo) (q : DmaFifoQueue) :
    (s.setFifo f q).channels = s.channels := by cases f <;> rfl

@[simp] theorem setFifo_read (s : IopDmac) (f : IopFifo) (q : DmaFifoQueue) : (s.setFifo f q).read = s.read := by
  cases f <;> rfl

@[simp] theorem setFifo_stored (s : IopDmac) (f : IopFifo) (q : DmaFifoQueue) : (s.setFifo f q).stored = s.stored := by
  cases f <;> rfl

theorem setFifo_enabled (s : IopDmac) (f : IopFifo) (q : DmaFifoQueue) :
    (s.setFifo f q).gctrl = s.gctrl ∧ (s.setFifo f q).pcr0 = s.pcr0 ∧ (s.setFifo f q).pcr1 = s.pcr1 := by
  cases f <;> exact ⟨rfl, rfl, rfl⟩

theorem setFifo_sio {f : IopFifo} (hf : f ≠ .tosio2 ∧ f ≠ .fromsio2) (s : IopDmac) (q : DmaFifoQueue) :
    (s.setFifo f q).sio = s.sio := by
  cases f with
  | tosio2 => exact absurd rfl hf.1
  | fromsio2 => exact absurd rfl hf.2
  | _ => rfl

theorem frame_setFifo (s : IopDmac) (k : Fin 13) (q : DmaFifoQueue) : Frame k s (s.setFifo (dmaFifoQueue k) q) where
  channels j _ := by rw [setFifo_channels]
  enabled := setFifo_enabled s _ q
  chcr := .inl (by rw [setFifo_channels])
  serial h11 h12 := ⟨setFifo_sio (dmaFifoQueue_ne h11 h12) s q, setFifo_read s _ q, setFifo_stored s _ q⟩

theorem serial_setChannel (s : IopDmac) (k : Fin 13) (c : IopDmacChannel) : Serial s (s.setChannel k c) :=
  ⟨rfl, rfl, rfl⟩

theorem frame_setChannel {c : IopDmacChannel} (hc : c.chcr.w = (s.channels k).chcr.w ∨ c.chcr.started = false) :
    Frame k s (s.setChannel k c) where
  channels j hj := by rw [setChannel_channels, Function.update_of_ne hj]
  enabled := ⟨rfl, rfl, rfl⟩
  chcr := by rwa [setChannel_channels, Function.update_self]
  serial _ _ := serial_setChannel s k c

theorem frame_setChannelTci (s : IopDmac) (k : Fin 13) (value : Uword) : Frame k s (s.setChannelTci k value) := by
  unfold setChannelTci
  split_ifs <;> exact ⟨fun _ _ => rfl, ⟨rfl, rfl, rfl⟩, .inl rfl, fun _ _ => ⟨rfl, rfl, rfl⟩⟩

theorem frame_handleInterruptCheck (s : IopDmac) (k : Fin 13) : Frame k s s.handleInterruptCheck := by
  unfold handleInterruptCheck
  split_ifs <;> exact ⟨fun _ _ => rfl, ⟨rfl, rfl, rfl⟩, .inl rfl, fun _ _ => ⟨rfl, rfl, rfl⟩⟩

theorem writeUword_w (c : IopDmacChcr) (value : Uword) : (c.writeUword value).w = value := by
  unfold IopDmacChcr.writeUword
  split_ifs <;> rfl

/-- A write of `CHCR` with `START` clear ends the transfer, whatever direction the channel forces. -/
theorem started_writeUword {value : Uword} (c : IopDmacChcr) (k : Fin 13)
    (h : IopDmacChcr.start.extractFrom value = 0) : (c.writeUword (IopDmacChcr.forced k value)).started = false := by
  have hforced : IopDmacChcr.start.extractFrom (IopDmacChcr.forced k value) = 0 := by
    rw [IopDmacChcr.start, Bitfield.extractFrom_bit_eq_zero_iff] at h ⊢
    rw [IopDmacChcr.forced]
    split_ifs
    · rw [BitVec.getLsbD_or, h]
      decide
    · rw [BitVec.getLsbD_and, h]
      decide
    · exact h
  rw [IopDmacChcr.started, writeUword_w, hforced]
  decide

theorem serial_setStateSuspended (s : IopDmac) (k : Fin 13) : Serial s (s.setStateSuspended k) := by
  unfold setStateSuspended handleInterruptCheck setChannelTci
  split_ifs <;> exact ⟨rfl, rfl, rfl⟩

theorem frame_writeChcr {value : Uword} (h : IopDmacChcr.start.extractFrom value = 0) :
    Frame k s (s.writeChcr k value) := frame_setChannel (.inr (started_writeUword _ k h))

theorem frame_setStateSuspended (s : IopDmac) (k : Fin 13) : Frame k s (s.setStateSuspended k) := by
  have hstart : IopDmacChcr.start.extractFrom (IopDmacChcr.start.insertInto (s.channels k).chcr.w 0) = 0 := by
    rw [Bitfield.extractFrom_insertInto_self _ _ _ (by decide)]
    exact BitVec.zero_and
  unfold setStateSuspended
  exact ((frame_writeChcr hstart).trans (frame_setChannelTci _ k 1)).trans (frame_handleInterruptCheck _ k)

theorem serial_finish (s : IopDmac) (k : Fin 13) : Serial s (s.finish k) := by
  unfold finish
  split_ifs
  · exact .refl s
  · exact serial_setStateSuspended s k

theorem frame_finish (s : IopDmac) (k : Fin 13) : Frame k s (s.finish k) := by
  unfold finish
  split_ifs
  · exact .refl k s
  · exact frame_setStateSuspended s k

/-! ### A turn -/

theorem frame_advance (s : IopDmac) (k : Fin 13) : Frame k s (s.advance k) := frame_setChannel (.inl rfl)

theorem frame_dataMoved (h : DataMoved s k s') : Frame k s s' := by
  cases h with
  | starved => exact .refl k s
  | blocked => exact .refl k s
  | @received packet q memory hfrom hread hwrite =>
    have hstore : Frame k s { s with memory, stored := if k = 12 then s.stored ++ packet else s.stored } :=
      ⟨fun _ _ => rfl, ⟨rfl, rfl, rfl⟩, .inl rfl, fun _ h12 => ⟨rfl, rfl, if_neg h12⟩⟩
    exact (hstore.trans (frame_setFifo _ k q)).trans (frame_advance _ k)
  | @sent packet q hto hread hwrite =>
    have hread : Frame k s { s with read := if k = 11 then s.read ++ bytes 4 packet else s.read } :=
      ⟨fun _ _ => rfl, ⟨rfl, rfl, rfl⟩, .inl rfl, fun h11 _ => ⟨rfl, if_neg h11, rfl⟩⟩
    exact (hread.trans (frame_setFifo _ k q)).trans (frame_advance _ k)

theorem frame_setTag (s : IopDmac) (k : Fin 13) (tag : IopDmatag) (n : ℕ) : Frame k s (s.setTag k tag n) :=
  frame_setChannel (.inl rfl)

theorem frame_tagRead {r : Bool × IopDmac} (h : TagRead s k r) : Frame k s r.2 := by
  cases h with
  | waits => exact .refl k s
  | @source _ _ _ _ _ q => exact ((frame_setFifo s k q).trans (frame_setTag _ k _ _)).trans (frame_setChannel (.inl rfl))
  | @dest _ q => exact (frame_setFifo s k q).trans (frame_setTag _ k _ _)

theorem frame_turnStep (h : TurnStep s k s') : Frame k s s' := by
  cases h with
  | startNormal => exact frame_setChannel (.inl rfl)
  | startChain => exact frame_setChannel (.inl rfl)
  | data _ _ hdata => exact frame_dataMoved hdata
  | ends => exact frame_finish s k
  | @tag r _ _ _ htag =>
    have hframe := frame_tagRead htag
    split
    · exact hframe.trans (frame_setChannel (.inl rfl))
    · exact hframe

theorem frame_turn (s : IopDmac) (k : Fin 13) : Ensures (Frame k s) (s.turn k) :=
  ensures_turn s k (fun _ => .refl k s) fun _ _ _ h => frame_turnStep h

end IopDmac

end Orbum
