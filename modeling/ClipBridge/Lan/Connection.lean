import ClipBridge.Lan.Receive
import ClipBridge.Lib.Duplex

/-!
# Two programs on a connection

A program works, or waits for its next frame, or has ended. `frameParty` runs one on the byte
streams of a connection: what it sends is written by `writeFrame`, and what it reads comes from
`readFrame`.

* `Carried` — a message that gets through: it is written, and reads back.
* `onWire` — two programs, with the frames that are on their way.
* `left_works`, `left_reads`, `right_works`, `right_reads` — what a turn does to them.
-/

namespace ClipBridge

/-- What a program does next. -/
inductive Mode where
  | works
  | waits
  | ended
  deriving DecidableEq

variable [Aead] [LanJson]

omit [LanJson] in
/-- A connection that takes every frame that `write_frame` accepts. -/
def wireSend (key : Key) (nonce : LanMessage → Bytes) : Send := fun msg =>
  match writeFrame key (nonce msg) msg with
  | .error e => some e
  | .ok _ => none

omit [LanJson] in
/-- The bytes of the frames that went out. -/
def wireBytes (key : Key) (nonce : LanMessage → Bytes) (msgs : List LanMessage) : Bytes :=
  msgs.flatMap fun msg => (writeFrame key (nonce msg) msg).toOption.getD []

variable {σ : Type}

/-- A program that works, or reads its next frame. -/
def frameParty (key : Key) (nonce : LanMessage → Bytes) (mode : σ → Mode)
    (work : σ → σ × List LanMessage) (onRead : σ → Read → σ × List LanMessage) :
    Duplex.Party σ UInt8 where
  step s inbox closed :=
    match mode s with
    | .ended => none
    | .works => some ((work s).1, inbox, wireBytes key nonce (work s).2)
    | .waits => (readFrame key inbox closed).map fun r =>
        ((onRead s r.1).1, r.2, wireBytes key nonce (onRead s r.1).2)
  ended s := mode s = .ended
  step_append s inbox s' left out h more closed := by
    cases hmode : mode s with
    | ended => simp [hmode] at h
    | works =>
        simp only [hmode, Option.some.injEq, Prod.mk.injEq] at h ⊢
        obtain ⟨rfl, rfl, rfl⟩ := h
        exact ⟨rfl, rfl, rfl⟩
    | waits =>
        simp only [hmode, Option.map_eq_some_iff] at h ⊢
        obtain ⟨⟨read, left'⟩, hread, he⟩ := h
        obtain ⟨rfl, rfl, rfl⟩ := Prod.mk.inj he |>.imp_right Prod.mk.inj
        exact ⟨(read, left' ++ more), readFrame_append hread more closed, rfl⟩
  step_ended s inbox closed h := by
    have hmode : mode s = .ended := by simpa using h
    simp [hmode]

/-! ## Messages that get through -/

/-- The message is written as a frame, and the frame reads back as the message. -/
def Carried (key : Key) (nonce : LanMessage → Bytes) (msg : LanMessage) : Prop :=
  ∃ f : WireFrame key, f.msg = msg ∧ writeFrame key (nonce msg) msg = .ok f.bytes

section

variable {key : Key} {nonce : LanMessage → Bytes} {msg : LanMessage} {msgs : List LanMessage}

theorem carried_of_fits (hseal : Seals key) (hnonce : (nonce msg).length = nonceLen)
    (hfits : Fits msg) (hread : ReadsBack msg) : Carried key nonce msg :=
  exists_wireFrame hseal hnonce hfits hread

theorem wireSend_carried (h : Carried key nonce msg) : wireSend key nonce msg = none := by
  obtain ⟨f, -, hwrite⟩ := h
  simp [wireSend, hwrite]

omit [LanJson] in
theorem wireBytes_append (msgs more : List LanMessage) :
    wireBytes key nonce (msgs ++ more) = wireBytes key nonce msgs ++ wireBytes key nonce more := by
  simp [wireBytes]

theorem readFrame_carried (h : Carried key nonce msg) (msgs : List LanMessage) (closed : Bool) :
    readFrame key (wireBytes key nonce (msg :: msgs)) closed =
      some (.ok (some msg), wireBytes key nonce msgs) := by
  obtain ⟨f, rfl, hwrite⟩ := h
  have hbytes : wireBytes key nonce (f.msg :: msgs) = f.bytes ++ wireBytes key nonce msgs := by
    simp [wireBytes, hwrite, Except.toOption]
  rw [hbytes, f.readFrame_bytes]

end

/-! ## Turns -/

section

variable {σ τ : Type} {key : Key} {nonceL nonceR : LanMessage → Bytes} {modeL : σ → Mode}
  {workL : σ → σ × List LanMessage} {readL : σ → Read → σ × List LanMessage} {modeR : τ → Mode}
  {workR : τ → τ × List LanMessage} {readR : τ → Read → τ × List LanMessage} {l : σ} {r : τ}
  {msg : LanMessage} {toRight toLeft : List LanMessage}

omit [LanJson] in
/-- Two programs, and the frames on the way to each of them. -/
def onWire (key : Key) (nonceL nonceR : LanMessage → Bytes) (l : σ) (r : τ)
    (toRight toLeft : List LanMessage) : Duplex.Link σ τ UInt8 :=
  ⟨l, r, wireBytes key nonceL toRight, wireBytes key nonceR toLeft⟩

theorem left_works (h : modeL l = .works) :
    Duplex.act (frameParty key nonceL modeL workL readL) (frameParty key nonceR modeR workR readR)
        (onWire key nonceL nonceR l r toRight toLeft) .left =
      some (onWire key nonceL nonceR (workL l).1 r (toRight ++ (workL l).2) toLeft) := by
  simp [Duplex.act, frameParty, onWire, h, wireBytes_append]

theorem left_reads (h : modeL l = .waits) (hmsg : Carried key nonceR msg) :
    Duplex.act (frameParty key nonceL modeL workL readL) (frameParty key nonceR modeR workR readR)
        (onWire key nonceL nonceR l r toRight (msg :: toLeft)) .left =
      some (onWire key nonceL nonceR (readL l (.ok (some msg))).1 r
        (toRight ++ (readL l (.ok (some msg))).2) toLeft) := by
  simp [Duplex.act, frameParty, onWire, h, wireBytes_append, readFrame_carried hmsg]

theorem right_works (h : modeR r = .works) :
    Duplex.act (frameParty key nonceL modeL workL readL) (frameParty key nonceR modeR workR readR)
        (onWire key nonceL nonceR l r toRight toLeft) .right =
      some (onWire key nonceL nonceR l (workR r).1 toRight (toLeft ++ (workR r).2)) := by
  simp [Duplex.act, frameParty, onWire, h, wireBytes_append]

theorem right_reads (h : modeR r = .waits) (hmsg : Carried key nonceL msg) :
    Duplex.act (frameParty key nonceL modeL workL readL) (frameParty key nonceR modeR workR readR)
        (onWire key nonceL nonceR l r (msg :: toRight) toLeft) .right =
      some (onWire key nonceL nonceR l (readR r (.ok (some msg))).1 toRight
        (toLeft ++ (readR r (.ok (some msg))).2)) := by
  simp [Duplex.act, frameParty, onWire, h, wireBytes_append, readFrame_carried hmsg]

/-- A program that waits for a frame, when none is on the way and the other may still send one. -/
theorem left_waits (h : modeL l = .waits) (hr : modeR r ≠ .ended) :
    Duplex.act (frameParty key nonceL modeL workL readL) (frameParty key nonceR modeR workR readR)
      (onWire key nonceL nonceR l r toRight []) .left = none := by
  simp [Duplex.act, frameParty, onWire, h, hr, wireBytes, readFrame]

theorem right_waits (h : modeR r = .waits) (hl : modeL l ≠ .ended) :
    Duplex.act (frameParty key nonceL modeL workL readL) (frameParty key nonceR modeR workR readR)
      (onWire key nonceL nonceR l r [] toLeft) .right = none := by
  simp [Duplex.act, frameParty, onWire, h, hl, wireBytes, readFrame]

/-- Two programs that have ended do nothing more. -/
theorem halted_of_ended (hl : modeL l = .ended) (hr : modeR r = .ended) :
    Duplex.Halted (frameParty key nonceL modeL workL readL)
      (frameParty key nonceR modeR workR readR)
      (onWire key nonceL nonceR l r toRight toLeft) := by
  intro side
  cases side <;> simp [Duplex.act, frameParty, onWire, hl, hr]

end

end ClipBridge
