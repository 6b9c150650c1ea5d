import Orbum.Ee.Dmac.Frame
import Orbum.Ee.Dmac.SourceChain
import Orbum.Lib.Run

/-!
# Runs of a source chain

A channel works through a source chain tick by tick while the peripheral takes bytes from its FIFO whenever it likes
and the other channels do what they are set up for. What goes into the FIFO is the data of the tags, in order and each
quadword once; the transfer stops when the FIFO is empty after that, and stops for good.

## The model

A move is a tick of the controller or a read of the peripheral. What the ticks have pushed into the FIFO and how many
of them found it empty is recorded beside the controller. That the chain is in memory when the channel has its turn
is asked of every tick, since other channels may write to memory.
-/

namespace Orbum

open LittleEndian

/-- A move of a run. -/
inductive ChainMove where
  /-- `time_step` of the controller. -/
  | tick
  /-- The peripheral reads `n` bytes from the FIFO of the channel. -/
  | take (n : ℕ)

/-- The controller, and what is recorded of a run. -/
structure ChainRun where
  /-- The controller. -/
  dmac : EeDmac
  /-- The bytes that went into the FIFO. -/
  pushed : List Ubyte
  /-- The ticks that found the FIFO empty. -/
  served : ℕ

namespace ChainRun

open EeDmac EeDmacChcr EeDmacTurn

/-- The bytes in the FIFO of channel `i`. -/
def fifo (i : Fin 10) (d : EeDmac) : List Ubyte := ((d.channels i).dmaFifoQueue.map DmaFifoQueue.bytes).getD []

/-- A move of a run, which watches channel `i`. -/
def step (i : Fin 10) : ChainMove → ChainRun → Except HostError ChainRun
  | .tick, s => do
    let d ← s.dmac.timeStep
    -- a tick takes nothing from the FIFO, so that what is new stands behind what was there
    return {
      dmac := d
      pushed := s.pushed ++ (fifo i d).drop (fifo i s.dmac).length
      served := s.served + if fifo i s.dmac = [] then 1 else 0 }
  | .take n, s => do
    let (_, queue) ← (← deref (s.dmac.channels i).dmaFifoQueue).read n
    let channel := { s.dmac.channels i with dmaFifoQueue := some queue }
    return { s with dmac := { s.dmac with channels := Function.update s.dmac.channels i channel } }

/-- The start of a run. -/
def start (d : EeDmac) : ChainRun := ⟨d, [], 0⟩

/-- At a tick, the image is in memory when channel `i` has its turn. -/
def InMemory (img : EeDmacImage) (i : Fin 10) : ChainMove → ChainRun → Prop
  | .tick, s => ∀ d, (before i).foldlM giveTurn s.dmac = .ok d → img.Holds d.memory
  | .take _, _ => True

/-- Channel `i` has just been started on the chain `ks`, with stall control off and the tags not transferred. -/
structure Starts (img : EeDmacImage) (i : Fin 10) (ks : List EeDmacPacket) (d : EeDmac) : Prop where
  /-- The channel has a FIFO and TADR. -/
  channel : i = 0 ∨ i = 1 ∨ i = 2 ∨ i = 4 ∨ i = 6
  /-- The channels are numbered. -/
  numbered : d.Numbered
  /-- Transfers are enabled. -/
  dmae : EeDmacCtrl.dmae.extractFrom d.ctrl ≠ 0
  /-- No channel is the source of stall control. -/
  sts : EeDmacCtrl.sts.extractFrom d.ctrl = 0
  /-- No channel is its drain. -/
  std : EeDmacCtrl.std.extractFrom d.ctrl = 0
  /-- The FIFO. -/
  queue : (d.channels i).dmaFifoQueue.isSome
  /-- CHCR as a write leaves it that starts the channel. -/
  chcr : ∃ w, (d.channels i).chcr = ⟨w, false, false, false, false, .blank⟩ ∧ str.extractFrom w ≠ 0 ∧
    mod.extractFrom w = 1 ∧ dir.extractFrom w ≠ 0 ∧ tte.extractFrom w = 0
  /-- No data without a tag. -/
  qwc : (d.channels i).qwc = 0
  /-- The chain is at TADR. -/
  chain : ∃ r, (d.channels i).tadr = some r ∧
    img.SourceChain (tie.extractFrom (d.channels i).chcr.w) (.ofReg r) ks

/-- The bytes of the data of a chain. -/
def dataBytes (ks : List EeDmacPacket) : List Ubyte := (ks.flatMap EeDmacPacket.data).flatMap (bytes 16)

/-- How many ticks that find the FIFO empty a chain takes, at most. -/
def ticks (ks : List EeDmacPacket) : ℕ := (ks.map fun k => 1 + k.data.length).sum + 2

/-- How a transfer of `ks` that was started in `d` stands. -/
structure Transfers (img : EeDmacImage) (i : Fin 10) (ks : List EeDmacPacket) (d : EeDmac) (s : ChainRun) : Prop where
  /-- What has gone into the FIFO is the beginning of the data. -/
  pushed : s.pushed <+: dataBytes ks
  /-- The bit of the channel is as it was until the transfer stops. -/
  quiet : ¬s.dmac.Idle i → s.dmac.stat.getLsbD i = d.stat.getLsbD i
  /-- Then all data has gone into the FIFO, and the bit is set. -/
  stopped : s.dmac.Idle i → s.pushed = dataBytes ks ∧ s.dmac.stat.getLsbD i = true
  /-- The transfer has stopped once enough ticks have found the FIFO empty. -/
  stops : ticks ks ≤ s.served → s.dmac.Idle i
  /-- The tick that stops it finds the FIFO empty and pushes nothing; after that no tick touches the channel. -/
  once : InMemory img i .tick s → ∀ s', step i .tick s = .ok s' →
    (¬s.dmac.Idle i → s'.dmac.Idle i → fifo i s.dmac = [] ∧ s'.pushed = s.pushed) ∧
      (s.dmac.Idle i → s'.dmac.channels i = s.dmac.channels i ∧
        s'.dmac.stat.getLsbD i = s.dmac.stat.getLsbD i ∧ s'.pushed = s.pushed)
  /-- A tick does not throw, unless another channel does. -/
  returns : InMemory img i .tick s → (∀ j ≠ i, s.dmac.Idle j) → ∃ s', step i .tick s = .ok s'

variable {img : EeDmacImage} {i : Fin 10} {ks : List EeDmacPacket} {d : EeDmac} {s s' : ChainRun} {left : List Uqword}
  {n : ℕ}

/-! ### The invariant -/

/-- A chain is under way for what the channel has and D_STADR, if that matters. -/
theorem sends_congr {t t' : EeDmacTurn} {qs : List Uqword} (h : Sends img t qs ks)
    (hchannel : t'.toEeDmacChannel = t.toEeDmacChannel) (hctrl : t'.ctrl = t.ctrl)
    (hstadr : t.channelId = 0 → t'.stadr = t.stadr) : Sends img t' qs ks := by
  obtain ⟨shared, channel⟩ := t
  obtain ⟨shared', channel'⟩ := t'
  obtain rfl : channel' = channel := hchannel
  refine ⟨h.not8, h.not9, h.queue, ⟨h.dirForced.sif0, h.dirForced.sif1⟩, h.str, h.mod, h.direction, h.tte, ?_, h.qwc,
    h.block, h.rest, fun h0 => ?_⟩
  · rw [hctrl]
    exact h.std
  · rw [hstadr h0]
    exact h.drains h0

theorem under_congr {t t' : EeDmacTurn} (h : Under img left n t)
    (hchannel : t'.toEeDmacChannel = t.toEeDmacChannel) (hctrl : t'.ctrl = t.ctrl)
    (hstadr : t.channelId = 0 → t'.stadr = t.stadr) : Under img left n t' := by
  obtain ⟨qs, ks, h, rfl, rfl⟩ := h
  refine ⟨qs, ks, sends_congr h hchannel hctrl hstadr, rfl, ?_⟩
  rw [work, work, show t'.chcr = t.chcr from congrArg EeDmacChannel.chcr hchannel]

/-- The transfer is under way, or it has stopped. -/
structure Inv (img : EeDmacImage) (i : Fin 10) (ks : List EeDmacPacket) (d : EeDmac) (s : ChainRun) : Prop where
  /-- The channels are numbered. -/
  numbered : s.dmac.Numbered
  /-- D_CTRL is as it was. -/
  ctrl : s.dmac.ctrl = d.ctrl
  /-- Where the transfer is. -/
  phase : (∃ left n, Under img left n (s.dmac.turn i) ∧ s.pushed ++ left.flatMap (bytes 16) = dataBytes ks ∧
      n + s.served ≤ ticks ks ∧ s.dmac.stat.getLsbD i = d.stat.getLsbD i) ∨
    (s.dmac.Idle i ∧ s.pushed = dataBytes ks ∧ s.dmac.stat.getLsbD i = true)

theorem ticks_eq (ks : List EeDmacPacket) {t : EeDmacTurn} (h : t.chcr.dmaStarted = false) : t.work [] ks = ticks ks := by
  simp only [work, ticks, h, Bool.not_false, Bool.toNat_true, List.length_nil]
  omega

theorem Starts.inv (h : Starts img i ks d) (hdrains : i = 0 → Drains d.stadr false ks) : Inv img i ks d (start d) := by
  obtain ⟨w, hchcr, hstr, hmod, hdir, htte⟩ := h.chcr
  obtain ⟨r, hr, hchain⟩ := h.chain
  have hid : (d.turn i).channelId = i := h.numbered i
  have hturn : (d.turn i).chcr = ⟨w, false, false, false, false, .blank⟩ := hchcr
  have hdirection : (d.turn i).chcr.direction = .TO := by
    rw [direction_eq_TO_iff, hturn]
    exact hdir
  have hne {j : Fin 10} (hj : j = 5 ∨ j = 8 ∨ j = 9) : (d.turn i).channelId ≠ j := by
    rw [hid]
    have := h.channel
    omega
  have hsends : Sends img (d.turn i) [] ks := by
    refine ⟨hne (by decide), hne (by decide), h.queue, ⟨fun h5 => absurd h5 (hne (by decide)), fun _ => hdirection⟩,
      ?_, ?_, hdirection, ?_, h.std, ?_, trivial, .inr ⟨?_, r, hr, hchain⟩, fun h0 => ⟨?_, ?_⟩⟩
    · rwa [hturn]
    · rwa [hturn]
    · rwa [hturn]
    · rw [show (d.turn i).qwc = 0 from h.qwc]
      rfl
    · rw [chainExit, hturn]
      simp
    · rw [hturn]
      exact fun hstall => absurd hstall Bool.false_ne_true
    · rw [hturn]
      exact hdrains (hid.symm.trans h0)
  exact ⟨h.numbered, rfl, .inl ⟨_, _, ⟨[], ks, hsends, rfl, rfl⟩, rfl, (ticks_eq ks (congrArg EeDmacChcr.dmaStarted hturn)).le, rfl⟩⟩

theorem fifo_eq {queue : DmaFifoQueue} (h : (d.channels i).dmaFifoQueue = some queue) : fifo i d = queue.bytes := by
  rw [fifo, h]
  rfl

/-! ### A tick -/

/-- What a tick makes of a transfer under way with `left` to send. -/
structure Sent (img : EeDmacImage) (i : Fin 10) (left : List Uqword) (n : ℕ) (s s' : ChainRun) : Prop where
  /-- Its bit is as it was. -/
  quiet : s'.dmac.stat.getLsbD i = s.dmac.stat.getLsbD i
  /-- Some of it has gone into the FIFO. -/
  under : ∃ sent left' n', left = sent ++ left' ∧ Under img left' n' (s'.dmac.turn i) ∧
    s'.pushed = s.pushed ++ sent.flatMap (bytes 16) ∧ n' + s'.served ≤ n + s.served

/-- What the tick has done that stops the transfer. -/
structure Stopped (i : Fin 10) (left : List Uqword) (s s' : ChainRun) : Prop where
  /-- Nothing was left. -/
  left : left = []
  /-- The FIFO was empty. -/
  empty : fifo i s.dmac = []
  /-- Nothing was pushed. -/
  pushed : s'.pushed = s.pushed
  /-- `STR` is clear. -/
  idle : s'.dmac.Idle i
  /-- The bit is set. -/
  cis : s'.dmac.stat.getLsbD i = true

/-- A started channel has its turn in a tick. -/
theorem under_tick (h : Under img left n (s.dmac.turn i)) (hn : s.dmac.Numbered)
    (hdmae : EeDmacCtrl.dmae.extractFrom s.dmac.ctrl ≠ 0) (hsts : EeDmacCtrl.sts.extractFrom s.dmac.ctrl = 0)
    (hmem : InMemory img i .tick s) (hs' : step i .tick s = .ok s') :
    s'.dmac.Numbered ∧ s'.dmac.ctrl = s.dmac.ctrl ∧ (Sent img i left n s s' ∨ Stopped i left s s') := by
  obtain ⟨d', htick, heq⟩ := bind_eq_ok_iff.mp hs'
  obtain rfl := Except.ok.inj heq
  obtain ⟨d₁, t, hbefore, h1, hturn, h2⟩ := timeStep_ok (i := i) hdmae hn htick
  have hframe := frame_channelTurn (d₁.turn i) t hturn
  have hctrl : t.ctrl = s.dmac.ctrl := hframe.ctrl.trans h1.ctrl
  have hsource {ctrl : Uword} (hc : ctrl = s.dmac.ctrl) (h0 : i = 0) :
      i.val = EeDmacCtrl.stsMap (EeDmacCtrl.sts.extractFrom ctrl).toNat := by
    rw [hc, hsts, h0]
    rfl
  have hunder : Under img left n (d₁.turn i) :=
    under_congr h h1.channel h1.ctrl fun h0 => h1.stadr (hsource rfl ((hn i).symm.trans h0))
  obtain ⟨queue, hqueue⟩ : ∃ queue, (s.dmac.channels i).dmaFifoQueue = some queue := by
    obtain ⟨qs, ks, hsends, -⟩ := h
    exact Option.isSome_iff_exists.mp hsends.queue
  have hqueue₁ : (d₁.turn i).dmaFifoQueue = some queue := by
    rw [← hqueue, ← h1.channel]
    rfl
  have hchannel : (d'.turn i).toEeDmacChannel = t.toEeDmacChannel := h2.channel.trans (channels_setTurn_self _ _ _)
  have hfifo : fifo i s.dmac = queue.bytes := fifo_eq hqueue
  have hcis : d'.stat.getLsbD i = t.stat.getLsbD i := h2.cis
  obtain ⟨t', hturn', hcases⟩ := hunder.turn (hmem d₁ hbefore) hqueue₁
  obtain rfl := Except.ok.inj (hturn.symm.trans hturn')
  refine ⟨h2.numbered, h2.ctrl.trans hctrl, ?_⟩
  rcases hcases with hgoes | hstops
  · obtain ⟨sent, left', n', queue', hleft, hunder', hqueue', hbytes, hle, hlt⟩ := hgoes.under
    have hid : t.channelId = i := hframe.channelId.trans (h1.numbered i)
    refine .inl ⟨?_, sent, left', n', hleft, under_congr hunder' hchannel h2.ctrl fun h0 =>
      h2.stadr (hsource hctrl (hid.symm.trans h0)), ?_, ?_⟩
    · exact (hcis.trans (by rw [hgoes.stat]; rfl)).trans h1.cis
    · have hfifo' : fifo i d' = queue'.bytes :=
        fifo_eq ((congrArg EeDmacChannel.dmaFifoQueue hchannel).trans hqueue')
      simp only [hfifo', hfifo, hbytes, List.drop_left]
    · simp only [hfifo]
      split_ifs with hempty
      · have := hlt hempty
        omega
      · omega
  · have hfifo' : fifo i d' = queue.bytes :=
      fifo_eq (((congrArg EeDmacChannel.dmaFifoQueue hchannel).trans hstops.queue).trans hqueue₁)
    have hid : (d₁.turn i).channelId = i := h1.numbered i
    refine .inr ⟨hstops.left, hfifo.trans hstops.empty, ?_, ?_, ?_⟩
    · simp only [hfifo', hfifo, List.drop_length, List.append_nil]
    · rw [Idle, show (d'.channels i).chcr = t.chcr from congrArg EeDmacChannel.chcr hchannel]
      exact hstops.str
    · rw [hcis, hstops.cis, hid, EeDmacStat.cis, Bitfield.getLsbD_insertInto_bit _ _ _ (by omega)]
      simp

/-- A channel that is not started has none. -/
theorem idle_tick (h : s.dmac.Idle i) (hn : s.dmac.Numbered)
    (hdmae : EeDmacCtrl.dmae.extractFrom s.dmac.ctrl ≠ 0) (hs' : step i .tick s = .ok s') :
    s'.dmac.Numbered ∧ s'.dmac.ctrl = s.dmac.ctrl ∧ s'.dmac.channels i = s.dmac.channels i ∧
      s'.dmac.stat.getLsbD i = s.dmac.stat.getLsbD i ∧ s'.pushed = s.pushed := by
  obtain ⟨d', htick, heq⟩ := bind_eq_ok_iff.mp hs'
  obtain rfl := Except.ok.inj heq
  obtain ⟨d₁, t, -, h1, hturn, h2⟩ := timeStep_ok (i := i) hdmae hn htick
  have hidle : d₁.Idle i := by
    rw [Idle, h1.channel]
    exact h
  obtain rfl := Except.ok.inj (hturn.symm.trans (if_neg (not_not_intro hidle)))
  have hchannel : d'.channels i = s.dmac.channels i :=
    (h2.channel.trans (channels_setTurn_self _ _ _)).trans h1.channel
  refine ⟨h2.numbered, h2.ctrl.trans h1.ctrl, hchannel, h2.cis.trans h1.cis, ?_⟩
  simp only [fifo, hchannel, List.drop_length, List.append_nil]

/-! ### Runs -/

theorem Starts.under_dmae (h : Starts img i ks d) (hinv : Inv img i ks d s) :
    EeDmacCtrl.dmae.extractFrom s.dmac.ctrl ≠ 0 := by
  rw [hinv.ctrl]
  exact h.dmae

/-- A tick keeps the invariant. -/
theorem Inv.tick (h : Starts img i ks d) (hinv : Inv img i ks d s) (hmem : InMemory img i .tick s)
    (hs' : step i .tick s = .ok s') : Inv img i ks d s' := by
  have hdmae := h.under_dmae hinv
  rcases hinv.phase with ⟨left, n, hunder, hpushed, hle, hcis⟩ | ⟨hidle, hpushed, hcis⟩
  · have hsts : EeDmacCtrl.sts.extractFrom s.dmac.ctrl = 0 := by
      rw [hinv.ctrl]
      exact h.sts
    obtain ⟨hn, hctrl, hsent | hstopped⟩ := under_tick hunder hinv.numbered hdmae hsts hmem hs'
    · obtain ⟨sent, left', n', rfl, hunder', hpushed', hle'⟩ := hsent.under
      refine ⟨hn, hctrl.trans hinv.ctrl, .inl ⟨left', n', hunder', ?_, hle'.trans hle, hsent.quiet.trans hcis⟩⟩
      rw [hpushed', List.append_assoc, ← List.flatMap_append, hpushed]
    · refine ⟨hn, hctrl.trans hinv.ctrl, .inr ⟨hstopped.idle, ?_, hstopped.cis⟩⟩
      rw [hstopped.left, List.flatMap_nil, List.append_nil] at hpushed
      rw [hstopped.pushed, hpushed]
  · obtain ⟨hn, hctrl, hchannel, hcis', hpushed'⟩ := idle_tick hidle hinv.numbered hdmae hs'
    refine ⟨hn, hctrl.trans hinv.ctrl, .inr ⟨?_, hpushed'.trans hpushed, hcis'.trans hcis⟩⟩
    rw [Idle, hchannel]
    exact hidle

/-- So does a read of the peripheral. -/
theorem Inv.take {k : ℕ} (hinv : Inv img i ks d s) (hs' : step i (.take k) s = .ok s') : Inv img i ks d s' := by
  obtain ⟨queue₀, -, hs'⟩ := bind_eq_ok_iff.mp hs'
  obtain ⟨⟨packet, queue⟩, -, hs'⟩ := bind_eq_ok_iff.mp hs'
  obtain rfl := Except.ok.inj hs'
  let channel := { s.dmac.channels i with dmaFifoQueue := some queue }
  have hself : Function.update s.dmac.channels i channel i = channel := Function.update_self _ _ _
  refine ⟨fun j => ?_, hinv.ctrl, ?_⟩
  · by_cases hj : j = i
    · rw [hj]
      exact (congrArg EeDmacChannel.channelId hself).trans (hinv.numbered i)
    · exact (congrArg EeDmacChannel.channelId (Function.update_of_ne hj _ _)).trans (hinv.numbered j)
  · rcases hinv.phase with ⟨left, n, hunder, hpushed, hle, hcis⟩ | ⟨hidle, hpushed, hcis⟩
    · exact .inl ⟨left, n, under_congr (hunder.setQueue queue) hself rfl fun _ => rfl, hpushed, hle, hcis⟩
    · refine .inr ⟨?_, hpushed, hcis⟩
      exact (congrArg (fun c : EeDmacChannel => str.extractFrom c.chcr.w) hself).trans hidle

theorem Inv.step (h : Starts img i ks d) {m : ChainMove} (hinv : Inv img i ks d s) (hmem : InMemory img i m s)
    (hs' : step i m s = .ok s') : Inv img i ks d s' := by
  cases m with
  | tick => exact hinv.tick h hmem hs'
  | take k => exact hinv.take hs'

/-- A channel with a chain under way is started. -/
theorem not_idle_of_under (h : Under img left n (s.dmac.turn i)) : ¬s.dmac.Idle i := by
  obtain ⟨qs, ks, hsends, -⟩ := h
  exact hsends.str

theorem Inv.stands (h : Starts img i ks d) (hinv : Inv img i ks d s) : Transfers img i ks d s := by
  have hdmae := h.under_dmae hinv
  have hsts : EeDmacCtrl.sts.extractFrom s.dmac.ctrl = 0 := by
    rw [hinv.ctrl]
    exact h.sts
  rcases hinv.phase with ⟨left, n, hunder, hpushed, hle, hcis⟩ | ⟨hidle, hpushed, hcis⟩
  · have hbusy := not_idle_of_under hunder
    refine ⟨⟨_, hpushed⟩, fun _ => hcis, fun hidle => absurd hidle hbusy, fun hserved => ?_, fun hmem s' hs' => ?_,
      fun hmem hidle => ?_⟩
    · obtain ⟨qs, ks', -, -, rfl⟩ := hunder
      rw [work] at hle
      omega
    · refine ⟨fun _ hidle' => ?_, fun hidle => absurd hidle hbusy⟩
      obtain ⟨-, -, hsent | hstopped⟩ := under_tick hunder hinv.numbered hdmae hsts hmem hs'
      · obtain ⟨sent, left', n', -, hunder', -⟩ := hsent.under
        exact absurd hidle' (not_idle_of_under hunder')
      · exact ⟨hstopped.empty, hstopped.pushed⟩
    · have himg : img.Holds s.dmac.memory :=
        hmem _ (turns_of_idle fun j hj => hidle j (ne_of_mem_before i j hj))
      obtain ⟨queue, hqueue⟩ : ∃ queue, (s.dmac.turn i).dmaFifoQueue = some queue := by
        obtain ⟨qs, ks, hsends, -⟩ := hunder
        exact Option.isSome_iff_exists.mp hsends.queue
      obtain ⟨t, ht, -⟩ := hunder.turn himg hqueue
      obtain ⟨d', hd'⟩ := timeStep_of_idle hdmae hidle ht
      exact ⟨_, bind_eq_ok_iff.mpr ⟨d', hd', rfl⟩⟩
  · refine ⟨hpushed ▸ List.prefix_refl _, fun hbusy => absurd hidle hbusy, fun _ => ⟨hpushed, hcis⟩, fun _ => hidle,
      fun _ s' hs' => ⟨fun hbusy => absurd hidle hbusy, fun _ => ?_⟩, fun _ hothers => ?_⟩
    · obtain ⟨-, -, hchannel, hcis', hpushed'⟩ := idle_tick hidle hinv.numbered hdmae hs'
      exact ⟨hchannel, hcis', hpushed'⟩
    · obtain ⟨d', hd'⟩ := timeStep_of_idle hdmae hothers (if_neg (not_not_intro hidle))
      exact ⟨_, bind_eq_ok_iff.mpr ⟨d', hd', rfl⟩⟩

/-- Every run of a source chain delivers its data, unless stall control that is off holds back channel 0. -/
theorem chain_transfers (h : Starts img i ks d) (hdrains : i = 0 → Drains d.stadr false ks) {moves : List ChainMove}
    (hmem : Run.Always (step i) (InMemory img i) moves (start d))
    (hrun : Run.run (step i) moves (start d) = .ok s) : Transfers img i ks d s := by
  have hinv : Inv img i ks d s :=
    hmem.invariant_run (fun _ _ _ hinv hm hs' => hinv.step h hm hs') (h.inv hdrains) hrun
  exact hinv.stands h

/-! ### A REFS tag of channel 0 -/

/-- A REFS at 0x1000 to one quadword at 0x2000, and an END. -/
def refsImage : EeDmacImage := fun address spr =>
  if spr then none
  else if address = 0x1000 then some (Uqword.ofWords 0x40000001 0x2000 0 0)
  else if address = 0x1010 then some (Uqword.ofWords 0x70000000 0 0 0)
  else if address = 0x2000 then some (Uqword.ofWords 0 0 0 0)
  else none

/-- The chain at 0x1000. -/
def refsChain : List EeDmacPacket :=
  [⟨⟨.ofReg 0x2000, .ofReg 0x1010, false, true⟩, [Uqword.ofWords 0 0 0 0]⟩,
    ⟨⟨.ofReg 0x1020, .ofReg 0x1010, true, false⟩, []⟩]

/-- VIF0 just started on it, and no other channel. -/
def refsDmac (stadr : Uword) : EeDmac where
  ctrl := 1
  stat := 0
  stadr := stadr
  sbusF240 := 0
  memory := {
    mapped := fun _ => true
    byte := fun x => if x = 0x1000 then 1 else if x = 0x1003 then 0x40 else if x = 0x1005 then 0x20
      else if x = 0x1013 then 0x70 else 0 }
  channels i := {
    channelId := i
    dmaFifoQueue := some .empty
    madr := 0
    qwc := 0
    chcr := ⟨if i = 0 then 0x105 else 0, false, false, false, false, .blank⟩
    tadr := some 0x1000
    asr := none
    sadr := none }
  cause := ⟨0, fun _ => false⟩

theorem starts_refs (stadr : Uword) : Starts refsImage 0 refsChain (refsDmac stadr) where
  channel := .inl rfl
  numbered _ := rfl
  dmae := show EeDmacCtrl.dmae.extractFrom 1 ≠ 0 by decide
  sts := show EeDmacCtrl.sts.extractFrom 1 = 0 by decide
  std := show EeDmacCtrl.std.extractFrom 1 = 0 by decide
  queue := rfl
  chcr := ⟨0x105, rfl, by decide, by decide, by decide, by decide⟩
  qwc := rfl
  chain := by
    refine ⟨0x1000, rfl, .tag (q := Uqword.ofWords 0x40000001 0x2000 0 0) rfl (by decide) (by decide) rfl rfl ?_ ?_ rfl ?_⟩
    · exact .inl (show EeDmacChcr.tie.extractFrom 0x105 = 0 by decide)
    · exact ⟨rfl, fun h => absurd rfl h, trivial⟩
    · exact .last (q := Uqword.ofWords 0x70000000 0 0 0) rfl (by decide) (by decide) rfl rfl trivial rfl

/-- What `refsImage` asks of memory. -/
def ReadsRefs (m : Memory) : Prop :=
  m.readUqword 0x1000 = .ok (Uqword.ofWords 0x40000001 0x2000 0 0) ∧
    m.readUqword 0x1010 = .ok (Uqword.ofWords 0x70000000 0 0 0) ∧
    m.readUqword 0x2000 = .ok (Uqword.ofWords 0 0 0 0)

instance (m : Memory) : Decidable (ReadsRefs m) := inferInstanceAs (Decidable (_ ∧ _))

theorem holds_refs {m : Memory} (h : ReadsRefs m) : refsImage.Holds m := by
  intro address spr q hq
  rw [refsImage] at hq
  split_ifs at hq with h0 h1 h2 h3
  · obtain rfl := Option.some.inj hq
    rw [h1, readQwordMemory, if_neg h0, h.1]
  · obtain rfl := Option.some.inj hq
    rw [h2, readQwordMemory, if_neg h0, h.2.1]
  · obtain rfl := Option.some.inj hq
    rw [h3, readQwordMemory, if_neg h0, h.2.2]

theorem always_refs {moves : List ChainMove} (h : Run.Always (step 0) (fun _ s => ReadsRefs s.dmac.memory) moves s) :
    Run.Always (step 0) (InMemory refsImage 0) moves s := by
  refine Run.Always.invariant (I := fun _ => True) (fun _ _ _ _ _ _ => trivial) (fun m s _ hs => ?_) trivial h
  cases m with
  | tick =>
    rintro d hd
    obtain rfl := Except.ok.inj hd
    exact holds_refs hs
  | take k => trivial

/-- With D_STADR above the quadword it is delivered. -/
theorem chain_transfers_refs : ∃ s,
    Run.run (step 0) [.tick, .tick, .tick, .take 16, .tick, .tick] (start (refsDmac 0x2008)) = .ok s ∧
      Transfers refsImage 0 refsChain (refsDmac 0x2008) s := by
  have hdrains : Drains 0x2008 false refsChain := by decide
  have hmem : Run.Always (step 0) (fun _ s => ReadsRefs s.dmac.memory)
      [.tick, .tick, .tick, .take 16, .tick, .tick] (start (refsDmac 0x2008)) := by decide +kernel
  exact ⟨_, rfl, chain_transfers (starts_refs 0x2008) (fun _ => hdrains) (always_refs hmem) rfl⟩

/-- With D_STADR clear, as without stall control, it never is. -/
theorem refs_stalls : Starts refsImage 0 refsChain (refsDmac 0) ∧
    ∃ moves s, Run.Always (step 0) (InMemory refsImage 0) moves (start (refsDmac 0)) ∧
      Run.run (step 0) moves (start (refsDmac 0)) = .ok s ∧ ¬Transfers refsImage 0 refsChain (refsDmac 0) s := by
  have hmem : Run.Always (step 0) (fun _ s => ReadsRefs s.dmac.memory) (.replicate 5 .tick) (start (refsDmac 0)) := by
    decide +kernel
  have hrun : ∃ s, Run.run (step 0) (.replicate 5 .tick) (start (refsDmac 0)) = .ok s ∧ ticks refsChain ≤ s.served ∧
      str.extractFrom (s.dmac.channels 0).chcr.w ≠ 0 := by
    decide +kernel
  obtain ⟨s, hs, hserved, hstr⟩ := hrun
  exact ⟨starts_refs 0, _, s, always_refs hmem, hs, fun h => hstr (h.stops hserved)⟩

end ChainRun

end Orbum
