import IotGateway.MqttPacket

/-!
# Reading packets from the broker

The socket hands over the bytes of the connection in pieces, and a read that finds
nothing lets `packet__read` return.  The next call goes on with the packet where
the last one stopped.
-/

namespace IotGateway

open Base128

namespace Mosquitto

/-- Why a read has no bytes. -/
inductive NetError where
  | again
  | interrupted
  | closed
  | reset
  | other
  deriving DecidableEq, Repr

/-- What the reads of the socket find one after another. -/
inductive Arrival where
  | data (first : UInt8) (more : List UInt8)
  | error (error : NetError)
  deriving DecidableEq, Repr

/-- The packet that is being read.  `payload` has the bytes in front of `pos`. -/
structure InPacket where
  command : UInt8 := 0
  remainingCount : ℤ := 0
  remainingMult : ℕ := 1
  remainingLength : ℕ := 0
  toProcess : ℕ := 0
  payload : List UInt8 := []
  deriving DecidableEq, Repr

/-- The packet and what the socket has for it. -/
structure Incoming where
  inPacket : InPacket
  arrivals : List Arrival
  deriving DecidableEq, Repr

def unread : List UInt8 → List Arrival → List Arrival
  | [], arrivals => arrivals
  | byte :: bytes, arrivals => .data byte bytes :: arrivals

/-- A read of up to `count` bytes, for which there is room for one at least. -/
def netRead (count : ℕ) : List Arrival → Except NetError (UInt8 × List UInt8) × List Arrival
  | [] => (.error .again, [])
  | .error error :: arrivals => (.error error, arrivals)
  | .data first more :: arrivals =>
      (.ok (first, more.take (count - 1)), unread (more.drop (count - 1)) arrivals)

/-- What `packet__read` returns when it finds no byte of the fixed header. -/
def headerCode : NetError → ReturnCode
  | .again | .interrupted => .success
  | .closed | .reset => .connLost
  | .other => .errno

/-- The same behind the fixed header, where the end of the stream has no code of its
own. -/
def payloadCode : NetError → ReturnCode
  | .again | .interrupted => .success
  | .reset => .connLost
  | .closed | .other => .errno

/-- A call returns early with a code, or goes on. -/
abbrev Reading (α : Type) := Except (ReturnCode × Incoming) α

def readCommand (incoming : Incoming) : Reading Incoming :=
  if incoming.inPacket.command ≠ 0 then .ok incoming
  else
    match netRead 1 incoming.arrivals with
    | (.ok (byte, _), arrivals) => .ok ⟨{ incoming.inPacket with command := byte }, arrivals⟩
    | (.error error, arrivals) => .error (headerCode error, ⟨incoming.inPacket, arrivals⟩)

def InPacket.takeDigit (digit : UInt8) (packet : InPacket) : InPacket :=
  { packet with
    remainingCount := packet.remainingCount - 1
    remainingMult := packet.remainingMult * 128
    remainingLength := packet.remainingLength + digitValue digit * packet.remainingMult }

/-- The loop over the digits of the length.  The fifth one is an error, so that five
rounds are enough. -/
def readLength : ℕ → Incoming → Reading Incoming
  | 0, incoming => .error (.malformedPacket, incoming)
  | rounds + 1, incoming =>
      match netRead 1 incoming.arrivals with
      | (.error error, arrivals) => .error (headerCode error, ⟨incoming.inPacket, arrivals⟩)
      | (.ok (digit, _), arrivals) =>
          if incoming.inPacket.remainingCount - 1 < -4 then
            .error (.malformedPacket,
              ⟨{ incoming.inPacket with remainingCount := incoming.inPacket.remainingCount - 1 },
                arrivals⟩)
          else if continues digit then
            readLength rounds ⟨incoming.inPacket.takeDigit digit, arrivals⟩
          else .ok ⟨incoming.inPacket.takeDigit digit, arrivals⟩

/-- The length is known: its count becomes positive. -/
def InPacket.finishLength (packet : InPacket) : InPacket :=
  { packet with
    remainingCount := packet.remainingCount * -1
    toProcess := if packet.remainingLength > 0 then packet.remainingLength else packet.toProcess }

/-- The loop over the pieces of the payload.  Each round takes a byte at least, so that
the number of bytes to process bounds the rounds. -/
def readPayload : ℕ → Incoming → Reading Incoming
  | 0, incoming => .ok incoming
  | rounds + 1, incoming =>
      if incoming.inPacket.toProcess > 0 then
        match netRead incoming.inPacket.toProcess incoming.arrivals with
        | (.error error, arrivals) => .error (payloadCode error, ⟨incoming.inPacket, arrivals⟩)
        | (.ok (first, more), arrivals) =>
            readPayload rounds
              ⟨{ incoming.inPacket with
                  toProcess := incoming.inPacket.toProcess - (first :: more).length
                  payload := incoming.inPacket.payload ++ first :: more }, arrivals⟩
      else .ok incoming

def readRemainingLength (incoming : Incoming) : Reading Incoming :=
  if incoming.inPacket.remainingCount ≤ 0 then do
    let incoming ← readLength 5 incoming
    return ⟨incoming.inPacket.finishLength, incoming.arrivals⟩
  else .ok incoming

def readParts (incoming : Incoming) : Reading Incoming := do
  let incoming ← readCommand incoming
  let incoming ← readRemainingLength incoming
  readPayload incoming.inPacket.toProcess incoming

/-- A call of `packet__read` up to the handling of the packet, and what it leaves. -/
def packetRead (incoming : Incoming) : Reading (Packet × Incoming) := do
  let incoming ← readParts incoming
  return (⟨incoming.inPacket.command, incoming.inPacket.payload⟩, ⟨{}, incoming.arrivals⟩)

/-- The packets that `calls` calls of `packet__read` handle, as long as no call fails. -/
def packetReads (handle : Packet → ReturnCode) : ℕ → Incoming → List Packet × ReturnCode × Incoming
  | 0, incoming => ([], .success, incoming)
  | calls + 1, incoming =>
      match packetRead incoming with
      | .error (code, incoming) =>
          if code = .success then packetReads handle calls incoming else ([], code, incoming)
      | .ok (packet, incoming) =>
          if handle packet = .success then
            let (packets, result) := packetReads handle calls incoming
            (packet :: packets, result)
          else ([packet], handle packet, incoming)

/-! ## Pieces of the stream -/

/-- The bytes that the socket hands over. -/
def received : List Arrival → List UInt8
  | [] => []
  | .data first more :: arrivals => first :: (more ++ received arrivals)
  | .error _ :: arrivals => received arrivals

/-- The errors that the reads find. -/
def errors : List Arrival → List NetError
  | [] => []
  | .data _ _ :: arrivals => errors arrivals
  | .error error :: arrivals => error :: errors arrivals

variable {arrivals later : List Arrival} {bytes stream : List UInt8} {count : ℕ}

@[simp] theorem received_unread (bytes : List UInt8) (arrivals : List Arrival) :
    received (unread bytes arrivals) = bytes ++ received arrivals := by
  cases bytes <;> rfl

@[simp] theorem errors_unread (bytes : List UInt8) (arrivals : List Arrival) :
    errors (unread bytes arrivals) = errors arrivals := by
  cases bytes <;> rfl

theorem received_unread_pause (count : ℕ) (error : NetError) (bytes : List UInt8) :
    received (unread (bytes.take count) (.error error :: unread (bytes.drop count) [])) =
      bytes := by
  rw [received_unread, received, received_unread, received, List.append_nil,
    List.take_append_drop]

/-- A read hands over bytes, or finds an error. -/
theorem netRead_cases (count : ℕ) (arrivals : List Arrival) :
    (∃ first more later, netRead count arrivals = (.ok (first, more), later) ∧
        more.length ≤ count - 1 ∧ received arrivals = first :: (more ++ received later) ∧
        errors arrivals = errors later) ∨
      ∃ error later, netRead count arrivals = (.error error, later) ∧
        received arrivals = received later ∧
        (errors arrivals = error :: errors later ∨
          error = .again ∧ errors arrivals = [] ∧ later = []) := by
  cases arrivals with
  | nil => exact .inr ⟨.again, [], rfl, rfl, .inr ⟨rfl, rfl, rfl⟩⟩
  | cons arrival arrivals =>
      cases arrival with
      | error error => exact .inr ⟨error, arrivals, rfl, rfl, .inl rfl⟩
      | data first more =>
          refine .inl ⟨first, more.take (count - 1), unread (more.drop (count - 1)) arrivals, rfl,
            List.length_take_le _ _, ?_, ?_⟩
          · rw [received_unread, ← List.append_assoc, List.take_append_drop]
            rfl
          · rw [errors_unread]
            rfl

/-! ## Parts of a packet -/

/-- The command and `front`, the first digits of the length, have been read. -/
inductive InLength (packet : Packet) : List UInt8 → InPacket → Prop where
  | digits {front back : List UInt8} (hdigits : Numeral (front ++ back)) (hback : back ≠ [])
      (hcount : (front ++ back).length ≤ 4)
      (hlength : value (front ++ back) = packet.payload.length) :
      InLength packet (back ++ packet.payload)
        ⟨packet.command, -front.length, 128 ^ front.length, value front, 0, []⟩

/-- The fixed header and `front`, the first part of the payload, have been read. -/
inductive InPayload (packet : Packet) : List UInt8 → InPacket → Prop where
  | bytes {front back : List UInt8} {remainingCount : ℤ} {remainingMult : ℕ}
      (hcount : 0 < remainingCount) (hpayload : packet.payload = front ++ back) :
      InPayload packet back
        ⟨packet.command, remainingCount, remainingMult, packet.payload.length, back.length, front⟩

/-- The command has been read, and more is to come. -/
inductive Started (packet : Packet) (bytes : List UInt8) (inPacket : InPacket) : Prop where
  | length (hlength : InLength packet bytes inPacket)
  | payload (hpayload : InPayload packet bytes inPacket) (hbytes : bytes ≠ [])

/-- `bytes` of the packet is still to come. -/
inductive Partway (packet : Packet) : List UInt8 → InPacket → Prop where
  | idle {bytes : List UInt8} (hencodes : Encodes packet bytes) : Partway packet bytes {}
  | started {bytes : List UInt8} {inPacket : InPacket} (hcommand : packet.command ≠ 0)
      (hstarted : Started packet bytes inPacket) : Partway packet bytes inPacket

/-- A call returned in the middle of the packet because of an error that a read found.
`missing` has not arrived yet, and `behind` is what follows the packet. -/
structure Paused (packet : Packet) (missing behind : List UInt8) (arrivals : List Arrival)
    (code : ReturnCode) (incoming : Incoming) : Prop where
  partway : ∃ bytes, Partway packet bytes incoming.inPacket ∧
    received incoming.arrivals ++ missing = bytes ++ behind
  cause : ∃ error, (code = headerCode error ∨ code = payloadCode error) ∧
    (errors arrivals = error :: errors incoming.arrivals ∨
      error = .again ∧ errors arrivals = [] ∧ incoming.arrivals = [])

/-- A part of the call has gone on, or the call returned. -/
inductive Continued (packet : Packet) (missing behind : List UInt8) (arrivals : List Arrival)
    (Next : List UInt8 → InPacket → Prop) : Reading Incoming → Prop where
  | ok {bytes : List UInt8} {incoming : Incoming} (hnext : Next bytes incoming.inPacket)
      (hstream : received incoming.arrivals ++ missing = bytes ++ behind)
      (herrors : errors incoming.arrivals = errors arrivals) :
      Continued packet missing behind arrivals Next (.ok incoming)
  | paused {code : ReturnCode} {incoming : Incoming}
      (hpaused : Paused packet missing behind arrivals code incoming) :
      Continued packet missing behind arrivals Next (.error (code, incoming))

section Parts

variable {packet : Packet} {missing behind : List UInt8} {inPacket : InPacket}
  {Next After : List UInt8 → InPacket → Prop} {error : NetError} {code : ReturnCode}

theorem InPayload.toProcess_eq (hpayload : InPayload packet bytes inPacket) :
    inPacket.toProcess = bytes.length := by
  cases hpayload
  rfl

theorem Started.ne_nil (hstarted : Started packet bytes inPacket) : bytes ≠ [] := by
  cases hstarted with
  | length hlength =>
      cases hlength with
      | digits _ hback => exact List.append_ne_nil_of_left_ne_nil hback _
  | payload _ hbytes => exact hbytes

theorem Started.command_eq (hstarted : Started packet bytes inPacket) :
    inPacket.command = packet.command := by
  cases hstarted with
  | length hlength => cases hlength; rfl
  | payload hpayload => cases hpayload; rfl

theorem Partway.ne_nil (hpartway : Partway packet bytes inPacket) : bytes ≠ [] := by
  cases hpartway with
  | idle hencodes =>
      cases hencodes
      exact List.cons_ne_nil _ _
  | started _ hstarted => exact hstarted.ne_nil

theorem Paused.of_errors_eq {earlier : List Arrival} {incoming : Incoming}
    (hpaused : Paused packet missing behind arrivals code incoming)
    (herrors : errors arrivals = errors earlier) :
    Paused packet missing behind earlier code incoming where
  partway := hpaused.partway
  cause := herrors ▸ hpaused.cause

theorem Continued.of_errors_eq {earlier : List Arrival} {result : Reading Incoming}
    (hresult : Continued packet missing behind arrivals Next result)
    (herrors : errors arrivals = errors earlier) :
    Continued packet missing behind earlier Next result := by
  cases hresult with
  | ok hnext hstream hsame => exact .ok hnext hstream (hsame.trans herrors)
  | paused hpaused => exact .paused (hpaused.of_errors_eq herrors)

theorem Continued.bind {first : Reading Incoming} {next : Incoming → Reading Incoming}
    (hfirst : Continued packet missing behind arrivals Next first)
    (hnext : ∀ bytes incoming, Next bytes incoming.inPacket →
      received incoming.arrivals ++ missing = bytes ++ behind →
        Continued packet missing behind incoming.arrivals After (next incoming)) :
    Continued packet missing behind arrivals After (first >>= next) := by
  cases hfirst with
  | paused hpaused => exact .paused hpaused
  | ok hcurrent hstream herrors =>
      change Continued _ _ _ _ _ (next _)
      exact (hnext _ _ hcurrent hstream).of_errors_eq herrors

/-- A read that finds an error ends the call. -/
theorem paused_of_netRead (hpartway : Partway packet bytes inPacket)
    (hstream : received arrivals ++ missing = bytes ++ behind)
    (hcode : code = headerCode error ∨ code = payloadCode error)
    (hreceived : received arrivals = received later)
    (herrors : errors arrivals = error :: errors later ∨
      error = .again ∧ errors arrivals = [] ∧ later = []) :
    Paused packet missing behind arrivals code ⟨inPacket, later⟩ where
  partway := ⟨bytes, hpartway, hreceived ▸ hstream⟩
  cause := ⟨error, hcode, herrors⟩

theorem readCommand_partway (hpartway : Partway packet bytes inPacket)
    (hstream : received arrivals ++ missing = bytes ++ behind) :
    Continued packet missing behind arrivals
      (fun bytes inPacket => packet.command ≠ 0 ∧ Started packet bytes inPacket)
      (readCommand ⟨inPacket, arrivals⟩) := by
  unfold readCommand
  cases hpartway with
  | started hcommand hstarted =>
      rw [if_pos (hstarted.command_eq ▸ hcommand)]
      exact .ok ⟨hcommand, hstarted⟩ hstream rfl
  | idle hencodes =>
      rw [if_neg (not_not_intro rfl)]
      rcases netRead_cases 1 arrivals with
        ⟨first, more, later, hread, hmore, hreceived, herrors⟩ |
        ⟨error, later, hread, hreceived, herrors⟩
      · rw [hread]
        rw [List.length_eq_zero_iff.mp (Nat.le_zero.mp hmore)] at hreceived
        rw [hreceived] at hstream
        cases hencodes with
        | packet hcommand hdigits hcount hlength =>
            obtain ⟨rfl, hrest⟩ := List.cons.inj hstream
            refine .ok ⟨hcommand, .length ?_⟩ hrest herrors.symm
            exact @InLength.digits packet [] _ hdigits hdigits.ne_nil hcount hlength
      · rw [hread]
        exact .paused (paused_of_netRead (.idle hencodes) hstream (.inl rfl) hreceived herrors)

theorem takeDigit_eq (command digit : UInt8) (front : List UInt8) :
    InPacket.takeDigit digit ⟨command, -front.length, 128 ^ front.length, value front, 0, []⟩ =
      ⟨command, -(front ++ [digit]).length, 128 ^ (front ++ [digit]).length,
        value (front ++ [digit]), 0, []⟩ := by
  have hvalue : value (front ++ [digit]) = value front + digitValue digit * 128 ^ front.length := by
    rw [value_append, value, value, Nat.mul_zero, Nat.add_zero, Nat.mul_comm]
  have hcount : (-(front ++ [digit]).length : ℤ) = -front.length - 1 := by
    rw [List.length_append, List.length_singleton]
    omega
  unfold InPacket.takeDigit
  rw [hvalue, hcount, List.length_append, List.length_singleton, Nat.pow_succ]

theorem finishLength_inPayload {digits : List UInt8} (hpos : digits ≠ [])
    (hlength : value digits = packet.payload.length) :
    InPayload packet packet.payload (InPacket.finishLength
      ⟨packet.command, -digits.length, 128 ^ digits.length, value digits, 0, []⟩) := by
  have hprocess : (if value digits > 0 then value digits else 0) = packet.payload.length := by
    rw [← hlength]
    split <;> omega
  unfold InPacket.finishLength
  rw [hprocess, hlength]
  have hcount : (0 : ℤ) < -digits.length * -1 := by
    have := List.length_pos_of_ne_nil hpos
    omega
  exact @InPayload.bytes packet [] packet.payload _ _ hcount rfl

theorem readLength_partway {rounds : ℕ} (hcommand : packet.command ≠ 0)
    (hlength : InLength packet bytes inPacket)
    (hrounds : 5 ≤ rounds + inPacket.remainingCount.natAbs)
    (hstream : received arrivals ++ missing = bytes ++ behind) :
    Continued packet missing behind arrivals
      (fun bytes inPacket => InPayload packet bytes inPacket.finishLength)
      (readLength rounds ⟨inPacket, arrivals⟩) := by
  induction rounds generalizing bytes inPacket arrivals with
  | zero =>
      cases hlength with
      | digits _ _ hcount =>
          rw [List.length_append] at hcount
          simp at hrounds
          omega
  | succ rounds ih =>
      rw [readLength]
      rcases netRead_cases 1 arrivals with
        ⟨digit, more, later, hread, hmore, hreceived, herrors⟩ |
        ⟨error, later, hread, hreceived, herrors⟩
      · rw [hread]
        rw [List.length_eq_zero_iff.mp (Nat.le_zero.mp hmore)] at hreceived
        rw [hreceived] at hstream
        cases hlength with
        | @digits front back hdigits hback hcount hvalue =>
            obtain ⟨first, back, rfl⟩ := List.exists_cons_of_ne_nil hback
            obtain ⟨rfl, hrest⟩ := List.cons.inj hstream
            rw [List.append_cons] at hdigits hcount hvalue
            have hfew : ¬(-front.length - 1 : ℤ) < -4 := by
              rw [List.length_append, List.length_append, List.length_singleton] at hcount
              omega
            simp only [if_neg hfew, takeDigit_eq]
            rw [List.append_assoc, List.singleton_append] at hdigits
            rcases hdigits.split with ⟨hcontinues, hmore⟩ | ⟨hlast, rfl⟩
            · rw [if_pos hcontinues]
              rw [List.append_cons] at hdigits
              have henough : 5 ≤ rounds + (-(front ++ [digit]).length : ℤ).natAbs := by
                rw [List.length_append, List.length_singleton]
                simp only [Int.natAbs_neg, Int.natAbs_natCast] at hrounds ⊢
                omega
              exact (ih (.digits hdigits hmore hcount hvalue) henough hrest).of_errors_eq
                herrors.symm
            · rw [if_neg (by rw [hlast]; decide)]
              rw [List.append_nil] at hvalue
              exact .ok (finishLength_inPayload (List.append_ne_nil_of_right_ne_nil _
                (List.cons_ne_nil _ _)) hvalue) hrest herrors.symm
      · rw [hread]
        exact .paused (paused_of_netRead (.started hcommand (.length hlength)) hstream (.inl rfl)
          hreceived herrors)

theorem readPayload_partway {rounds : ℕ} (hcommand : packet.command ≠ 0)
    (hpayload : InPayload packet bytes inPacket) (hrounds : bytes.length ≤ rounds)
    (hstream : received arrivals ++ missing = bytes ++ behind) :
    Continued packet missing behind arrivals
      (fun bytes inPacket => bytes = [] ∧ inPacket.command = packet.command ∧
        inPacket.payload = packet.payload)
      (readPayload rounds ⟨inPacket, arrivals⟩) := by
  induction rounds generalizing bytes inPacket arrivals with
  | zero =>
      have hnil : bytes = [] := List.length_eq_zero_iff.mp (Nat.le_zero.mp hrounds)
      cases hpayload with
      | bytes hcount hpayload =>
          subst hnil
          rw [List.append_nil] at hpayload
          exact .ok ⟨rfl, rfl, hpayload.symm⟩ hstream rfl
  | succ rounds ih =>
      rw [readPayload]
      cases hpayload with
      | @bytes front back remainingCount remainingMult hcount hpayload =>
          by_cases hprocess : bytes.length > 0
          · rw [if_pos hprocess]
            rcases netRead_cases bytes.length arrivals with
              ⟨first, more, later, hread, hmore, hreceived, herrors⟩ |
              ⟨error, later, hread, hreceived, herrors⟩
            · simp only [hread]
              rw [hreceived, ← List.cons_append, List.append_assoc] at hstream
              have hbytes : bytes <+: first :: more ++ (received later ++ missing) :=
                ⟨behind, hstream.symm⟩
              have hprefix : first :: more <+: bytes := by
                apply List.prefix_of_prefix_length_le (List.prefix_append _ _) hbytes
                rw [List.length_cons]
                omega
              obtain ⟨rest, rfl⟩ := hprefix
              rw [List.append_assoc, List.append_cancel_left_eq] at hstream
              rw [← List.append_assoc] at hpayload
              rw [List.length_append, Nat.add_sub_cancel_left]
              have hfewer : rest.length ≤ rounds := by
                rw [List.length_append, List.length_cons] at hrounds
                omega
              exact (ih (.bytes hcount hpayload) hfewer hstream).of_errors_eq herrors.symm
            · simp only [hread]
              apply Continued.paused
              refine paused_of_netRead (.started hcommand ?_) hstream (.inr rfl) hreceived herrors
              exact .payload (.bytes hcount hpayload) (List.ne_nil_of_length_pos hprocess)
          · rw [if_neg hprocess]
            have hnil : bytes = [] :=
              List.length_eq_zero_iff.mp (Nat.eq_zero_of_not_pos hprocess)
            subst hnil
            rw [List.append_nil] at hpayload
            exact .ok ⟨rfl, rfl, hpayload.symm⟩ hstream rfl

theorem readRemainingLength_partway (hcommand : packet.command ≠ 0)
    (hstarted : Started packet bytes inPacket)
    (hstream : received arrivals ++ missing = bytes ++ behind) :
    Continued packet missing behind arrivals (InPayload packet)
      (readRemainingLength ⟨inPacket, arrivals⟩) := by
  unfold readRemainingLength
  cases hstarted with
  | payload hpayload hbytes =>
      cases hpayload with
      | bytes hcount hpayload =>
          rw [if_neg (Int.not_le.mpr hcount)]
          exact .ok (.bytes hcount hpayload) hstream rfl
  | length hlength =>
      have hcount : inPacket.remainingCount ≤ 0 := by
        cases hlength
        exact Int.neg_nonpos_of_nonneg (Int.natCast_nonneg _)
      rw [if_pos hcount]
      exact (readLength_partway hcommand hlength (Nat.le_add_right _ _) hstream).bind
        fun _ _ hnext hrest => .ok hnext hrest rfl

theorem readParts_partway (hpartway : Partway packet bytes inPacket)
    (hstream : received arrivals ++ missing = bytes ++ behind) :
    Continued packet missing behind arrivals
      (fun bytes inPacket => bytes = [] ∧ inPacket.command = packet.command ∧
        inPacket.payload = packet.payload)
      (readParts ⟨inPacket, arrivals⟩) := by
  refine (readCommand_partway hpartway hstream).bind ?_
  rintro bytes incoming ⟨hcommand, hstarted⟩ hstream
  refine (readRemainingLength_partway hcommand hstarted hstream).bind ?_
  intro bytes incoming hpayload hstream
  exact readPayload_partway hcommand hpayload (Nat.le_of_eq hpayload.toProcess_eq.symm) hstream

/-- A call handles the packet, or it returns in the middle of it. -/
theorem packetRead_cases (hpartway : Partway packet bytes inPacket)
    (hstream : received arrivals ++ missing = bytes ++ behind) :
    (∃ later, packetRead ⟨inPacket, arrivals⟩ = .ok (packet, ⟨{}, later⟩) ∧
        received later ++ missing = behind ∧ errors later = errors arrivals) ∨
      ∃ code incoming, packetRead ⟨inPacket, arrivals⟩ = .error (code, incoming) ∧
        Paused packet missing behind arrivals code incoming := by
  have hparts := readParts_partway hpartway hstream
  unfold packetRead
  generalize readParts ⟨inPacket, arrivals⟩ = result at hparts
  cases hparts with
  | paused hpaused => exact .inr ⟨_, _, rfl, hpaused⟩
  | @ok bytes incoming hnext hrest herrors =>
      obtain ⟨rfl, hcommand, hpayload⟩ := hnext
      refine .inl ⟨incoming.arrivals, ?_, hrest, herrors⟩
      change Except.ok ((⟨_, _⟩ : Packet), _) = _
      rw [hcommand, hpayload]

end Parts

/-! ## Streams of packets -/

/-- The bytes of packets one behind another. -/
inductive Streams : List Packet → List UInt8 → Prop where
  | nil : Streams [] []
  | cons {packet : Packet} {packets : List Packet} {bytes stream : List UInt8}
      (hencodes : Encodes packet bytes) (hstream : Streams packets stream) :
      Streams (packet :: packets) (bytes ++ stream)

/-- The packets that are still to be handled, and the bytes of them that are still to
come. -/
inductive Awaiting : List Packet → List UInt8 → InPacket → Prop where
  | nil : Awaiting [] [] {}
  | cons {packet : Packet} {packets : List Packet} {bytes behind : List UInt8}
      {inPacket : InPacket} (hpartway : Partway packet bytes inPacket)
      (hbehind : Streams packets behind) :
      Awaiting (packet :: packets) (bytes ++ behind) inPacket

section Streams

variable {packets : List Packet} {missing : List UInt8} {inPacket : InPacket}
  {handle : Packet → ReturnCode} {calls : ℕ}

theorem Streams.awaiting (hstreams : Streams packets stream) : Awaiting packets stream {} := by
  cases hstreams with
  | nil => exact .nil
  | cons hencodes hstream => exact .cons (.idle hencodes) hstream

theorem packetRead_silent (hreceived : received arrivals = []) :
    ∃ error later, packetRead ⟨{}, arrivals⟩ = .error (headerCode error, ⟨{}, later⟩) ∧
      received later = [] := by
  rcases netRead_cases 1 arrivals with
    ⟨first, more, later, -, -, hbytes, -⟩ | ⟨error, later, hread, hlater, -⟩
  · rw [hreceived] at hbytes
    cases hbytes
  · refine ⟨error, later, ?_, hlater.symm.trans hreceived⟩
    unfold packetRead readParts readCommand
    rw [if_neg (not_not_intro rfl), hread]
    rfl

/-- A call handles the next packet of the stream, or it leaves the packets as they are.
When everything has arrived, only an error that a read finds keeps it from a packet. -/
theorem packetRead_awaiting (hawaiting : Awaiting packets (received arrivals ++ missing) inPacket) :
    (∃ packet rest later, packets = packet :: rest ∧
        packetRead ⟨inPacket, arrivals⟩ = .ok (packet, ⟨{}, later⟩) ∧
        Awaiting rest (received later ++ missing) {} ∧ errors later = errors arrivals) ∨
      ∃ code incoming, packetRead ⟨inPacket, arrivals⟩ = .error (code, incoming) ∧
        Awaiting packets (received incoming.arrivals ++ missing) incoming.inPacket ∧
        (missing = [] → packets ≠ [] → ∃ error,
          (code = headerCode error ∨ code = payloadCode error) ∧
            errors arrivals = error :: errors incoming.arrivals) := by
  generalize hstream : received arrivals ++ missing = stream at hawaiting
  cases hawaiting with
  | nil =>
      obtain ⟨hsilent, rfl⟩ := List.append_eq_nil_iff.mp hstream
      obtain ⟨error, later, hread, hreceived⟩ := packetRead_silent hsilent
      refine .inr ⟨_, _, hread, ?_, fun _ hne => absurd rfl hne⟩
      rw [hreceived]
      exact .nil
  | @cons packet packets bytes behind inPacket hpartway hbehind =>
      rcases packetRead_cases hpartway hstream with
        ⟨later, hread, hrest, herrors⟩ | ⟨code, incoming, hread, hpaused⟩
      · exact .inl ⟨packet, packets, later, rfl, hread, hrest ▸ hbehind.awaiting, herrors⟩
      · obtain ⟨rest, hrest, hlater⟩ := hpaused.partway
        refine .inr ⟨code, incoming, hread, hlater ▸ .cons hrest hbehind, ?_⟩
        rintro rfl -
        obtain ⟨error, hcode, hcause⟩ := hpaused.cause
        rcases hcause with hconsumed | ⟨-, -, hdone⟩
        · exact ⟨error, hcode, hconsumed⟩
        · rw [hdone] at hlater
          exact absurd (List.append_eq_nil_iff.mp hlater.symm).1 hrest.ne_nil

/-- The packets that are handled are the first ones of the stream, in order. -/
theorem packetReads_first (hawaiting : Awaiting packets (received arrivals ++ missing) inPacket) :
    (packetReads handle calls ⟨inPacket, arrivals⟩).1 <+: packets := by
  induction calls generalizing packets inPacket arrivals with
  | zero => exact List.nil_prefix
  | succ calls ih =>
      rw [packetReads]
      rcases packetRead_awaiting hawaiting with
        ⟨packet, rest, later, rfl, hread, hrest, -⟩ | ⟨code, incoming, hread, hrest, -⟩
      · rw [hread]
        simp only
        split
        · exact List.cons_prefix_cons.mpr ⟨rfl, ih hrest⟩
        · exact List.cons_prefix_cons.mpr ⟨rfl, List.nil_prefix⟩
      · rw [hread]
        simp only
        split
        · exact ih hrest
        · exact List.nil_prefix

/-- A read can be repeated after the error. -/
def NetError.Transient (error : NetError) : Prop := error = .again ∨ error = .interrupted

theorem code_of_transient {error : NetError} {code : ReturnCode} (htransient : error.Transient)
    (hcode : code = headerCode error ∨ code = payloadCode error) : code = .success := by
  rcases htransient with rfl | rfl <;> rcases hcode with rfl | rfl <;> rfl

/-- When everything has arrived, a call for each packet and for each error is enough. -/
theorem packetReads_all (hawaiting : Awaiting packets (received arrivals ++ []) inPacket)
    (htransient : ∀ error ∈ errors arrivals, error.Transient)
    (hhandle : ∀ packet ∈ packets, handle packet = .success)
    (hcalls : packets.length + (errors arrivals).length ≤ calls) :
    (packetReads handle calls ⟨inPacket, arrivals⟩).1 = packets := by
  induction calls generalizing packets inPacket arrivals with
  | zero =>
      have hnone : packets.length = 0 :=
        Nat.eq_zero_of_le_zero (Nat.le_of_add_right_le hcalls)
      exact (List.length_eq_zero_iff.mp hnone).symm
  | succ calls ih =>
      by_cases hpackets : packets = []
      · rw [hpackets] at hawaiting ⊢
        exact List.prefix_nil.mp (packetReads_first hawaiting)
      · rw [packetReads]
        rcases packetRead_awaiting hawaiting with
          ⟨packet, rest, later, rfl, hread, hrest, herrors⟩ |
          ⟨code, incoming, hread, hrest, hcause⟩
        · obtain ⟨hpacket, hothers⟩ := List.forall_mem_cons.mp hhandle
          rw [hread]
          simp only
          rw [if_pos hpacket]
          refine congrArg (packet :: ·) (ih hrest (herrors ▸ htransient) hothers ?_)
          rw [herrors]
          rw [List.length_cons] at hcalls
          omega
        · obtain ⟨error, hcode, hconsumed⟩ := hcause rfl hpackets
          rw [hconsumed] at htransient hcalls
          obtain ⟨herror, hmore⟩ := List.forall_mem_cons.mp htransient
          rw [hread]
          simp only
          rw [if_pos (code_of_transient herror hcode)]
          apply ih hrest hmore hhandle
          rw [List.length_cons] at hcalls
          omega

/-- However the socket hands over the bytes of a stream, the calls handle its packets in
order, each once; and all of them when everything has arrived with no errors but EAGAIN
and EINTR, all packets are handled with success and there are calls enough. -/
theorem packetReads_streams (handle : Packet → ReturnCode) (calls : ℕ)
    (hstreams : Streams packets (received arrivals ++ missing)) :
    (packetReads handle calls ⟨{}, arrivals⟩).1 <+: packets ∧
      (missing = [] → (∀ error ∈ errors arrivals, error.Transient) →
        (∀ packet ∈ packets, handle packet = .success) →
          packets.length + (errors arrivals).length ≤ calls →
            (packetReads handle calls ⟨{}, arrivals⟩).1 = packets) := by
  refine ⟨packetReads_first hstreams.awaiting, ?_⟩
  rintro rfl htransient hhandle hcalls
  exact packetReads_all hstreams.awaiting htransient hhandle hcalls

/-- A message and a PINGRESP in three pieces. -/
def pieces : List Arrival :=
  [.data 0x30 [0x04, 0x00], .error .again, .data 0x01 [0x61], .error .interrupted,
    .data 0x31 [0xD0, 0x00]]

theorem packetReads_streams_pieces :
    (packetReads (fun _ => .success) 4 ⟨{}, pieces⟩).1 =
      [⟨0x30, [0x00, 0x01, 0x61, 0x31]⟩, ⟨0xD0, []⟩] := by
  have hmessage : Encodes ⟨0x30, [0x00, 0x01, 0x61, 0x31]⟩ [0x30, 0x04, 0x00, 0x01, 0x61, 0x31] :=
    @Encodes.packet ⟨_, _⟩ [0x04] (by decide) (.last rfl) (by decide) rfl
  have hpingresp : Encodes ⟨0xD0, []⟩ [0xD0, 0x00] :=
    @Encodes.packet ⟨_, _⟩ [0x00] (by decide) (.last rfl) (by decide) rfl
  have hstreams : Streams [⟨0x30, [0x00, 0x01, 0x61, 0x31]⟩, ⟨0xD0, []⟩]
      (received pieces ++ []) := by
    change Streams _ ([0x30, 0x04, 0x00, 0x01, 0x61, 0x31] ++ ([0xD0, 0x00] ++ []))
    exact .cons hmessage (.cons hpingresp .nil)
  refine (packetReads_streams (fun _ => .success) 4 hstreams).2 rfl ?_ (fun _ _ => rfl) (by decide)
  intro error hmem
  rcases List.mem_pair.mp hmem with rfl | rfl
  · exact .inl rfl
  · exact .inr rfl

end Streams

end Mosquitto

end IotGateway
