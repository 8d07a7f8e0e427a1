import SerialDriver.Codec
import SerialDriver.Lib.Stuffing

/-!
# The codec is byte stuffing

The encoder writes a delimiter, the stuffed payload and a delimiter (`encode_eq`), and reports
nothing when the payload is empty, too long, or does not fit (`encodeSerialData_eq`). The decoder
never reads outside its frame, and succeeds exactly on the encodings of payloads that fit
(`decodeSerialData_spec`).
-/

namespace Xr17v358

/-- The stuffing code of the driver. -/
def serialCode : Stuffing UInt8 where
  esc := frameEscape
  reserved := requiresEscape
  flip value := value ^^^ frameEscapeXor
  reserved_esc := by decide
  flip_flip value := by rw [UInt8.xor_assoc, UInt8.xor_self, UInt8.xor_zero]
  reserved_flip value h := by
    simp only [requiresEscape, Bool.or_eq_true, decide_eq_true_eq] at h
    rcases h with rfl | rfl <;> decide

theorem delimiter_not_mem_stuff (data : List UInt8) : frameDelimiter ∉ serialCode.stuff data :=
  serialCode.not_mem_stuff (by decide) (by decide) data

/-! ## Encoding -/

/-- The payloads one frame can carry. -/
def ValidPayload (data : List UInt8) : Prop := 1 ≤ data.length ∧ data.length ≤ queueCapacity

instance (data : List UInt8) : Decidable (ValidPayload data) :=
  inferInstanceAs (Decidable (_ ∧ _))

/-- The frame the encoder writes when given the driver's frame buffer; empty when it declines. -/
def encode (data : List UInt8) : List UInt8 :=
  encodeSerialData 0 (.bytes data) .valid maxEncodedByteCount

/-- **The pre-scan is exact.** -/
theorem encodedLength_eq (data : List UInt8) :
    encodedLength data = (serialCode.stuff data).length + 2 := by
  have hfold : ∀ n, data.foldl
      (fun frameLength value => frameLength + if requiresEscape value then 2 else 1) n =
        n + (serialCode.stuff data).length := by
    induction data with
    | nil => intro n; rfl
    | cons value data ih =>
      intro n
      rw [List.foldl_cons, ih, Stuffing.stuff_cons, List.length_append, ← Nat.add_assoc]
      congr 2
      show _ = (if requiresEscape value then [_, _] else [value] : List UInt8).length
      split_ifs <;> rfl
  rw [encodedLength, hfold, Nat.zero_add]

theorem encodedLength_le {data : List UInt8} (h : ValidPayload data) :
    encodedLength data ≤ maxEncodedByteCount := by
  have := serialCode.length_stuff_le data
  have := h.2
  rw [encodedLength_eq]
  unfold maxEncodedByteCount
  omega

theorem encodeSerialData_eq (portIndex : Nat) (data : List UInt8) (frameCapacity : Nat) :
    encodeSerialData portIndex (.bytes data) .valid frameCapacity =
      if ValidPayload data ∧ encodedLength data ≤ frameCapacity then
        frameDelimiter :: (serialCode.stuff data ++ [frameDelimiter])
      else [] := by
  show (if data.length = 0 ∨ queueCapacity < data.length then []
    else if frameCapacity < encodedLength data then []
    else frameDelimiter :: (serialCode.stuff data ++ [frameDelimiter])) = _
  by_cases hlen : data.length = 0 ∨ queueCapacity < data.length
  · rw [if_pos hlen, if_neg]
    rintro ⟨⟨hpos, hmax⟩, -⟩
    omega
  · rw [if_neg hlen]
    by_cases hcap : frameCapacity < encodedLength data
    · rw [if_pos hcap, if_neg fun h => absurd h.2 (by omega)]
    · rw [if_neg hcap, if_pos ⟨⟨by omega, by omega⟩, by omega⟩]

theorem encode_eq {data : List UInt8} (h : ValidPayload data) :
    encode data = frameDelimiter :: (serialCode.stuff data ++ [frameDelimiter]) := by
  rw [encode, encodeSerialData_eq, if_pos ⟨h, encodedLength_le h⟩]

theorem encode_eq_nil {data : List UInt8} (h : ¬ ValidPayload data) : encode data = [] := by
  rw [encode, encodeSerialData_eq, if_neg fun hv => h hv.1]

@[simp] theorem encode_nil : encode [] = [] := rfl

theorem length_encode {data : List UInt8} (h : ValidPayload data) :
    (encode data).length = encodedLength data := by
  rw [encode_eq h, encodedLength_eq]
  simp

/-- The two delimiters, the payload, and a byte more for each escape. -/
theorem length_encode_eq {data : List UInt8} (h : ValidPayload data) :
    (encode data).length = 2 + data.length + data.countP requiresEscape := by
  rw [length_encode h, encodedLength_eq, serialCode.length_stuff, Nat.add_comm, Nat.add_assoc]
  rfl

theorem length_encode_le (data : List UInt8) : (encode data).length ≤ maxEncodedByteCount := by
  by_cases h : ValidPayload data
  · rw [length_encode h]
    exact encodedLength_le h
  · simp [encode_eq_nil h]

theorem lt_length_encode {data : List UInt8} (h : ValidPayload data) :
    data.length < (encode data).length := by
  have := serialCode.le_length_stuff data
  rw [length_encode h, encodedLength_eq]
  omega

/-! ## Decoding -/

/-- The outcome of decoding the body `rest`, `data` being decoded already: either everything is
decoded and fits, or the frame is rejected and `rest` is no stuffed payload that would fit. With
room for any payload the only error is an invalid frame. -/
def Decoded (dataCapacity : Nat) (rest data : List UInt8) (out : Error × List UInt8) : Prop :=
  (∃ tail, rest = serialCode.stuff tail ∧ out = (.ok, data ++ tail) ∧
      data.length + tail.length ≤ min queueCapacity dataCapacity) ∨
  (out.1 ≠ .ok ∧ (queueCapacity ≤ dataCapacity → out.1 = .errorInvalidFrame) ∧
    ∀ tail, rest = serialCode.stuff tail →
      min queueCapacity dataCapacity < data.length + tail.length)

/-- A rejection is right as soon as the body is no stuffed payload at all. -/
theorem Decoded.invalid {dataCapacity : Nat} {rest : List UInt8} (data data' : List UInt8)
    (h : serialCode.unstuff rest = none) :
    Decoded dataCapacity rest data (.errorInvalidFrame, data') := by
  refine .inr ⟨by simp, fun _ => rfl, ?_⟩
  intro tail htail
  rw [htail, Stuffing.unstuff_stuff] at h
  exact absurd h (by simp)

/-- A decoded byte is put in front of what the rest of the body decodes to. -/
theorem Decoded.cons {dataCapacity : Nat} {value : UInt8} {rest data : List UInt8}
    {out : Error × List UInt8} (h : Decoded dataCapacity rest (data ++ [value]) out) :
    Decoded dataCapacity (serialCode.stuffSymbol value ++ rest) data out := by
  rcases h with ⟨tail, rfl, rfl, hlen⟩ | ⟨hne, hframe, hlong⟩
  · refine .inl ⟨value :: tail, rfl, by simp, ?_⟩
    simp only [List.length_append, List.length_cons, List.length_nil] at hlen ⊢
    omega
  · refine .inr ⟨hne, hframe, ?_⟩
    intro tail htail
    have hun : serialCode.unstuff (serialCode.stuff [value] ++ rest) = some tail := by
      rw [Stuffing.unstuff_eq_some_iff, ← htail]
      simp
    have hrest : ∃ more, tail = value :: more ∧ rest = serialCode.stuff more := by
      unfold Stuffing.stuff Stuffing.stuffSymbol at hun
      simp only [List.flatMap_cons, List.flatMap_nil, List.append_nil] at hun
      split_ifs at hun with hr
      · have hf : serialCode.reserved (serialCode.flip (serialCode.flip value)) = true := by
          rw [serialCode.flip_flip]; exact hr
        rw [List.cons_append, List.cons_append, List.nil_append,
          Stuffing.unstuff_esc serialCode hf, serialCode.flip_flip] at hun
        obtain ⟨more, hmore, rfl⟩ := Option.map_eq_some_iff.1 hun
        exact ⟨more, rfl, serialCode.unstuff_eq_some_iff.1 hmore⟩
      · rw [List.cons_append, List.nil_append,
          Stuffing.unstuff_cons_of_free serialCode (Bool.eq_false_of_not_eq_true hr)] at hun
        obtain ⟨more, hmore, rfl⟩ := Option.map_eq_some_iff.1 hun
        exact ⟨more, rfl, serialCode.unstuff_eq_some_iff.1 hmore⟩
    obtain ⟨more, rfl, hmore⟩ := hrest
    have := hlong more hmore
    simp only [List.length_append, List.length_cons, List.length_nil] at this ⊢
    omega

/-- The body's next byte, read at index `pre.length`. -/
theorem decodeValue_spec (pre rest : List UInt8) (value : UInt8) :
    (decodeValue (pre ++ (value :: rest ++ [frameDelimiter])) pre.length = some none ∧
      serialCode.unstuff (value :: rest) = none) ∨
    ∃ byte taken more, value :: rest = taken ++ more ∧ taken = serialCode.stuffSymbol byte ∧
      decodeValue (pre ++ (value :: rest ++ [frameDelimiter])) pre.length =
        some (some (byte, (pre ++ taken).length - 1)) ∧ 1 ≤ taken.length := by
  have hfirst : (pre ++ (value :: rest ++ [frameDelimiter]))[pre.length]? = some value := by
    simp
  by_cases hd : value = frameDelimiter
  · subst hd
    refine .inl ⟨by simp [decodeValue], ?_⟩
    cases rest <;> rfl
  by_cases he : value = frameEscape
  · subst he
    cases rest with
    | nil => exact .inl ⟨by simp [decodeValue, hd], rfl⟩
    | cons next rest =>
      by_cases hr : requiresEscape (next ^^^ frameEscapeXor)
      · refine .inr ⟨next ^^^ frameEscapeXor, [frameEscape, next], rest, rfl, ?_, ?_, by simp⟩
        · show _ = if requiresEscape (next ^^^ frameEscapeXor) then
            [frameEscape, next ^^^ frameEscapeXor ^^^ frameEscapeXor] else _
          rw [if_pos hr, UInt8.xor_assoc, UInt8.xor_self, UInt8.xor_zero]
        · simp [decodeValue, hd, hr]
      · refine .inl ⟨by simp [decodeValue, hd, hr], ?_⟩
        show (if frameEscape = frameEscape then
          if requiresEscape (next ^^^ frameEscapeXor) then _ else none else _) = none
        rw [if_pos rfl, if_neg hr]
  · have hfree : requiresEscape value = false := by simp [requiresEscape, hd, he]
    refine .inr ⟨value, [value], rest, rfl, ?_, by simp [decodeValue, hd, he], by simp⟩
    show _ = if requiresEscape value then _ else [value]
    rw [hfree]
    rfl

theorem decodeLoop_spec {dataCapacity : Nat} {pre rest data : List UInt8} {n : Nat}
    (hn : rest.length < n) (hdata : data.length ≤ min queueCapacity dataCapacity) :
    ∃ out, decodeLoop (pre ++ (rest ++ [frameDelimiter])) dataCapacity n pre.length data =
      some out ∧ Decoded dataCapacity rest data out := by
  induction n generalizing pre rest data with
  | zero => omega
  | succ n ih =>
    cases rest with
    | nil =>
      refine ⟨(.ok, data), by simp [decodeLoop], .inl ⟨[], rfl, by simp, by simpa using hdata⟩⟩
    | cons value rest =>
      have hmore : pre.length + 1 < (pre ++ (value :: rest ++ [frameDelimiter])).length := by
        simp
      rw [decodeLoop, if_pos hmore]
      rcases decodeValue_spec pre rest value with ⟨hnone, hinvalid⟩ |
        ⟨byte, taken, more, heq, htaken, hsome, hpos⟩
      · exact ⟨(.errorInvalidFrame, data), by rw [hnone]; rfl, .invalid data data hinvalid⟩
      · rw [hsome]
        simp only [Option.bind_eq_bind, Option.bind_some, Option.pure_def]
        -- A stuffed payload behind this byte would be one byte too long for the buffer.
        have hlong : min queueCapacity dataCapacity ≤ data.length → ∀ tail,
            value :: rest = serialCode.stuff tail →
              min queueCapacity dataCapacity < data.length + tail.length := by
          intro hfull tail htail
          cases tail with
          | nil => exact absurd htail (by simp)
          | cons _ _ => simp only [List.length_cons]; omega
        split_ifs with hq hc
        · exact ⟨_, rfl, .inr ⟨by simp, fun _ => rfl, hlong (by omega)⟩⟩
        · exact ⟨_, rfl, .inr ⟨by simp, fun _ => by omega, hlong (by omega)⟩⟩
        · have hidx : (pre ++ taken).length - 1 + 1 = (pre ++ taken).length := by
            simp only [List.length_append]
            omega
          have hlen := congrArg List.length heq
          simp only [List.length_cons, List.length_append] at hlen hn
          have hroom : (data ++ [byte]).length ≤ min queueCapacity dataCapacity := by
            simp only [List.length_append, List.length_cons, List.length_nil]
            omega
          obtain ⟨out, hrun, hout⟩ := @ih (pre ++ taken) more (data ++ [byte]) (by omega) hroom
          refine ⟨out, ?_, ?_⟩
          · rw [hidx, heq, ← hrun, List.append_assoc, List.append_assoc]
          · rw [heq, htaken]
            exact hout.cons

/-- A frame long enough whose two ends are delimiters. -/
theorem exists_body {frame : List UInt8} (hlen : 2 ≤ frame.length)
    (hfirst : frame[0]? = some frameDelimiter)
    (hlast : frame[frame.length - 1]? = some frameDelimiter) :
    ∃ body, frame = frameDelimiter :: (body ++ [frameDelimiter]) := by
  cases frame with
  | nil => simp at hlen
  | cons x tail =>
    obtain rfl : x = frameDelimiter := by simpa using hfirst
    have hne : tail ≠ [] := by
      rintro rfl
      simp at hlen
    refine ⟨tail.dropLast, ?_⟩
    have hget : tail.getLast? = some frameDelimiter := by
      rw [List.getLast?_eq_getElem?]
      obtain ⟨k, hk⟩ : ∃ k, tail.length = k + 1 := ⟨tail.length - 1, by
        have := List.length_pos_iff.2 hne
        omega⟩
      simpa [hk] using hlast
    rw [List.getLast?_eq_some_getLast hne, Option.some.injEq] at hget
    rw [← hget, List.dropLast_concat_getLast]

/-- A frame that is too short, or whose ends are no delimiters, is not decoded. -/
theorem decodeSerialData_unframed (portIndex : Nat) {frame : List UInt8} (dataCapacity : Nat)
    (h : ∀ body, body ≠ [] → frame ≠ frameDelimiter :: (body ++ [frameDelimiter])) :
    decodeSerialData portIndex (.bytes frame) ⟨.valid, dataCapacity⟩ .valid =
      some ⟨.errorInvalidFrame, [], none⟩ := by
  unfold decodeSerialData
  simp only [reduceCtorEq, or_self, if_false]
  by_cases hlen : frame.length < 3
  · rw [if_pos hlen]
  have hfirst := List.getElem?_eq_getElem (show 0 < frame.length by omega)
  have hlast := List.getElem?_eq_getElem (show frame.length - 1 < frame.length by omega)
  rw [if_neg hlen, hfirst, hlast]
  simp only [Option.bind_eq_bind, Option.bind_some, Option.pure_def]
  refine if_pos (not_and_or.1 fun hends => ?_)
  obtain ⟨body, rfl⟩ := exists_body (by omega) (hends.1 ▸ hfirst) (hends.2 ▸ hlast)
  refine h body ?_ rfl
  intro hnil
  exact hlen (by simp [hnil])

/-- Between two delimiters it is, and its length is stored if that succeeds. -/
theorem decodeSerialData_body (portIndex : Nat) {body : List UInt8} (dataCapacity : Nat)
    (hbody : body ≠ []) :
    ∃ out, Decoded dataCapacity body [] out ∧
      decodeSerialData portIndex (.bytes (frameDelimiter :: (body ++ [frameDelimiter])))
          ⟨.valid, dataCapacity⟩ .valid =
        some ⟨out.1, out.2, if out.1 = .ok then some out.2.length else none⟩ := by
  have hturns : body.length < (frameDelimiter :: (body ++ [frameDelimiter])).length := by simp
  obtain ⟨out, hrun, hout⟩ :=
    @decodeLoop_spec dataCapacity [frameDelimiter] body [] _ hturns (Nat.zero_le _)
  have hrun' : decodeLoop (frameDelimiter :: (body ++ [frameDelimiter])) dataCapacity
      (frameDelimiter :: (body ++ [frameDelimiter])).length 1 [] = some out := hrun
  have hlen : ¬ (frameDelimiter :: (body ++ [frameDelimiter])).length < 3 := by
    have hpos := List.length_pos_iff.2 hbody
    simp only [List.length_cons, List.length_append, List.length_nil]
    omega
  have hlast : (frameDelimiter :: (body ++ [frameDelimiter]))[
      (frameDelimiter :: (body ++ [frameDelimiter])).length - 1]? = some frameDelimiter := by simp
  refine ⟨out, hout, ?_⟩
  unfold decodeSerialData
  simp only [reduceCtorEq, or_self, if_false, if_neg hlen, hlast, List.getElem?_cons_zero, hrun',
    Option.bind_eq_bind, Option.bind_some, Option.pure_def, ne_eq, not_true_eq_false]
  by_cases hok : out.1 = .ok
  · rcases hout with ⟨data, rfl, rfl, -⟩ | ⟨herror, -⟩
    · have hne : ([] ++ data).length ≠ 0 := by
        intro hnil
        obtain rfl : data = [] := List.eq_nil_of_length_eq_zero hnil
        exact hbody rfl
      simp only [not_true_eq_false, if_false, if_true, hne]
    · exact absurd hok herror
  · rw [if_pos hok, if_neg hok]

/-- **The decoder accepts exactly the encodings that fit.** On a frame it reads no index outside
it; it succeeds precisely when the frame is the encoding of a payload that fits, and stores a
length only then. -/
theorem decodeSerialData_spec (portIndex : Nat) (frame : List UInt8) (dataCapacity : Nat) :
    ∃ reply, decodeSerialData portIndex (.bytes frame) ⟨.valid, dataCapacity⟩ .valid = some reply ∧
      ((∃ data, frame = frameDelimiter :: (serialCode.stuff data ++ [frameDelimiter]) ∧
          1 ≤ data.length ∧ data.length ≤ min queueCapacity dataCapacity ∧
          reply = ⟨.ok, data, some data.length⟩) ∨
        (reply.status ≠ .ok ∧
          (queueCapacity ≤ dataCapacity → reply.status = .errorInvalidFrame) ∧
          reply.dataLength = none ∧
          ∀ data, frame = frameDelimiter :: (serialCode.stuff data ++ [frameDelimiter]) →
            1 ≤ data.length → min queueCapacity dataCapacity < data.length)) := by
  by_cases hframed : ∃ body, body ≠ [] ∧ frame = frameDelimiter :: (body ++ [frameDelimiter])
  · obtain ⟨body, hbody, rfl⟩ := hframed
    obtain ⟨out, hout, hrun⟩ := decodeSerialData_body portIndex dataCapacity hbody
    refine ⟨_, hrun, ?_⟩
    rcases hout with ⟨data, rfl, rfl, hfit⟩ | ⟨herror, hframe, hlong⟩
    · have hne : data ≠ [] := by
        intro hnil
        exact hbody (by rw [hnil]; rfl)
      exact .inl ⟨data, rfl, List.length_pos_iff.2 hne, by simpa using hfit, rfl⟩
    · refine .inr ⟨herror, hframe, if_neg herror, ?_⟩
      intro data heq _
      simpa using hlong data (List.append_cancel_right (List.cons.inj heq).2)
  · refine ⟨_, decodeSerialData_unframed portIndex dataCapacity ?_,
      .inr ⟨by simp, fun _ => rfl, rfl, ?_⟩⟩
    · exact fun body hne heq => hframed ⟨body, hne, heq⟩
    · intro data heq hdata
      have hne := serialCode.stuff_ne_nil (List.ne_nil_of_length_pos hdata)
      exact absurd ⟨_, hne, heq⟩ hframed

/-- `frame` is what the encoder writes for `data` when given room enough. -/
def EncodesTo (portIndex : Nat) (data frame : List UInt8) : Prop :=
  ∃ k, ∀ frameCapacity ≥ k, encodeSerialData portIndex (.bytes data) .valid frameCapacity = frame

theorem encodesTo_iff (portIndex : Nat) {data frame : List UInt8} (h : ValidPayload data) :
    EncodesTo portIndex data frame ↔
      frame = frameDelimiter :: (serialCode.stuff data ++ [frameDelimiter]) := by
  constructor
  · rintro ⟨k, hk⟩
    rw [← hk (max k (encodedLength data)) (le_max_left ..), encodeSerialData_eq,
      if_pos ⟨h, le_max_right ..⟩]
  · rintro rfl
    exact ⟨encodedLength data, fun frameCapacity hcap => by
      rw [encodeSerialData_eq, if_pos ⟨h, hcap⟩]⟩

/-- The decoder's outcome, in terms of the encoder. -/
theorem decodeSerialData_image (portIndex : Nat) (frame : List UInt8) (dataCapacity : Nat) :
    ∃ reply, decodeSerialData portIndex (.bytes frame) ⟨.valid, dataCapacity⟩ .valid = some reply ∧
      ((∃ data, 1 ≤ data.length ∧ data.length ≤ min queueCapacity dataCapacity ∧
          EncodesTo portIndex data frame ∧ reply = ⟨.ok, data, some data.length⟩) ∨
        (reply.status ≠ .ok ∧ reply.dataLength = none ∧
          ∀ data, 1 ≤ data.length → data.length ≤ min queueCapacity dataCapacity →
            ¬ EncodesTo portIndex data frame)) := by
  obtain ⟨reply, hrun, hcases⟩ := decodeSerialData_spec portIndex frame dataCapacity
  refine ⟨reply, hrun, ?_⟩
  rcases hcases with ⟨data, hframe, hpos, hfit, hreply⟩ | ⟨hne, -, hnone, hlong⟩
  · have hvalid : ValidPayload data := ⟨hpos, by omega⟩
    exact .inl ⟨data, hpos, hfit, (encodesTo_iff portIndex hvalid).2 hframe, hreply⟩
  · refine .inr ⟨hne, hnone, ?_⟩
    intro data hpos hfit himage
    have hvalid : ValidPayload data := ⟨hpos, by omega⟩
    exact absurd (hlong data ((encodesTo_iff portIndex hvalid).1 himage) hpos) (by omega)

theorem EncodesTo.payload_unique {portIndex : Nat} {data data' frame : List UInt8}
    (hv : ValidPayload data) (hv' : ValidPayload data') (h : EncodesTo portIndex data frame)
    (h' : EncodesTo portIndex data' frame) : data = data' := by
  rw [encodesTo_iff portIndex hv] at h
  rw [encodesTo_iff portIndex hv', h] at h'
  exact serialCode.stuff_injective (List.append_cancel_right (List.cons.inj h').2)

theorem decodeSerialData_encode (portIndex : Nat) {data : List UInt8} (h : ValidPayload data) :
    decodeSerialData portIndex
        (.bytes (encodeSerialData portIndex (.bytes data) .valid maxEncodedByteCount))
        ⟨.valid, queueCapacity⟩ .valid =
      some ⟨.ok, data, some data.length⟩ := by
  have himage : EncodesTo portIndex data
      (encodeSerialData portIndex (.bytes data) .valid maxEncodedByteCount) := by
    rw [encodesTo_iff portIndex h, encodeSerialData_eq, if_pos ⟨h, encodedLength_le h⟩]
  have hfit : data.length ≤ min queueCapacity queueCapacity := by simpa using h.2
  obtain ⟨reply, hrun, ⟨data', hpos', hfit', himage', rfl⟩ | ⟨-, -, hreject⟩⟩ :=
    decodeSerialData_image portIndex
      (encodeSerialData portIndex (.bytes data) .valid maxEncodedByteCount) queueCapacity
  · obtain rfl := himage.payload_unique h ⟨hpos', hfit'.trans (min_le_left ..)⟩ himage'
    exact hrun
  · exact absurd himage (hreject data h.1 hfit)

theorem decodeSerialData_injective {portIndex : Nat} {frame frame' : List UInt8}
    {dataCapacity dataCapacity' : Nat} {reply reply' : DecodeReply}
    (hrun : decodeSerialData portIndex (.bytes frame) ⟨.valid, dataCapacity⟩ .valid = some reply)
    (hrun' : decodeSerialData portIndex (.bytes frame') ⟨.valid, dataCapacity'⟩ .valid =
      some reply')
    (hok : reply.status = .ok) (hok' : reply'.status = .ok) (hdata : reply.data = reply'.data) :
    frame = frame' := by
  obtain ⟨reply₁, hrun₁, hcases⟩ := decodeSerialData_image portIndex frame dataCapacity
  obtain ⟨reply₂, hrun₂, hcases'⟩ := decodeSerialData_image portIndex frame' dataCapacity'
  obtain rfl : reply = reply₁ := Option.some.inj (hrun.symm.trans hrun₁)
  obtain rfl : reply' = reply₂ := Option.some.inj (hrun'.symm.trans hrun₂)
  rcases hcases with ⟨data, hpos, hfit, himage, rfl⟩ | ⟨hne, -⟩
  · rcases hcases' with ⟨data', -, -, himage', rfl⟩ | ⟨hne', -⟩
    · obtain rfl : data = data' := hdata
      have hvalid : ValidPayload data := ⟨hpos, hfit.trans (min_le_left ..)⟩
      rw [encodesTo_iff portIndex hvalid] at himage himage'
      rw [himage, himage']
    · exact absurd hok' hne'
  · exact absurd hok hne

/-- **Decoding accepts exactly the image of encoding.** A frame decodes to `data` when and only
when the encoder produces it from `data`; every other frame is rejected and no length is stored.
Encoding then decoding is the identity, and no payload has two frames. -/
theorem decodeSerialData_correct :
    (∀ portIndex frame dataCapacity, ∃ reply,
      decodeSerialData portIndex (.bytes frame) ⟨.valid, dataCapacity⟩ .valid = some reply ∧
      (∀ data, (reply.status = .ok ∧ reply.data = data ∧ reply.dataLength = some data.length) ↔
        1 ≤ data.length ∧ data.length ≤ min queueCapacity dataCapacity ∧
          EncodesTo portIndex data frame) ∧
      ((∀ data, 1 ≤ data.length → data.length ≤ min queueCapacity dataCapacity →
        ¬ EncodesTo portIndex data frame) → reply.status ≠ .ok) ∧
      (reply.status ≠ .ok → reply.dataLength = none)) ∧
    (∀ portIndex data, 1 ≤ data.length → data.length ≤ queueCapacity →
      decodeSerialData portIndex
          (.bytes (encodeSerialData portIndex (.bytes data) .valid maxEncodedByteCount))
          ⟨.valid, queueCapacity⟩ .valid =
        some ⟨.ok, data, some data.length⟩) ∧
    (∀ portIndex frame frame' dataCapacity dataCapacity' reply reply',
      decodeSerialData portIndex (.bytes frame) ⟨.valid, dataCapacity⟩ .valid = some reply →
      decodeSerialData portIndex (.bytes frame') ⟨.valid, dataCapacity'⟩ .valid = some reply' →
      reply.status = .ok → reply'.status = .ok → reply.data = reply'.data → frame = frame') := by
  refine ⟨?_, ?_, ?_⟩
  · intro portIndex frame dataCapacity
    obtain ⟨reply, hrun, hcases⟩ := decodeSerialData_image portIndex frame dataCapacity
    refine ⟨reply, hrun, ?_⟩
    rcases hcases with ⟨data, hpos, hfit, himage, rfl⟩ | ⟨hne, hnone, hreject⟩
    · refine ⟨?_, fun hno => absurd himage (hno data hpos hfit), by simp⟩
      intro data'
      constructor
      · rintro ⟨-, rfl, -⟩
        exact ⟨hpos, hfit, himage⟩
      · rintro ⟨hpos', hfit', himage'⟩
        obtain rfl := EncodesTo.payload_unique ⟨hpos, by omega⟩ ⟨hpos', by omega⟩ himage himage'
        exact ⟨rfl, rfl, rfl⟩
    · refine ⟨?_, fun _ => hne, fun _ => hnone⟩
      intro data
      constructor
      · intro h
        exact absurd h.1 hne
      · intro h
        exact absurd h.2.2 (hreject data h.1 h.2.1)
  · intro portIndex data hpos hmax
    exact decodeSerialData_encode portIndex ⟨hpos, hmax⟩
  · intro portIndex frame frame' dataCapacity dataCapacity' reply reply' hrun hrun' hok hok' hdata
    exact decodeSerialData_injective hrun hrun' hok hok' hdata

/-! ## Decoding with the driver's buffer -/

/-- `decodeSerialData` as the driver calls it, with a payload buffer of the largest size. -/
def decode (portIndex : Nat) (frame : List UInt8) : DecodeReply :=
  (decodeSerialData portIndex (.bytes frame) ⟨.valid, queueCapacity⟩ .valid).get (by
    obtain ⟨reply, h, -⟩ := decodeSerialData_spec portIndex frame queueCapacity
    rw [h]; rfl)

/-- The payload of the frame with this body, if it is one. -/
def payloadOf (body : List UInt8) : Option (List UInt8) :=
  (serialCode.unstuff body).filter fun data => ValidPayload data

theorem payloadOf_eq_some_iff {body data : List UInt8} :
    payloadOf body = some data ↔ ValidPayload data ∧ body = serialCode.stuff data := by
  rw [payloadOf, Option.filter_eq_some_iff, Stuffing.unstuff_eq_some_iff, decide_eq_true_iff,
    and_comm]

theorem payloadOf_stuff {data : List UInt8} (h : ValidPayload data) :
    payloadOf (serialCode.stuff data) = some data :=
  payloadOf_eq_some_iff.2 ⟨h, rfl⟩

@[simp] theorem payloadOf_nil : payloadOf [] = none := rfl

theorem decode_of_payload {body data : List UInt8} (h : payloadOf body = some data)
    (portIndex : Nat) :
    decode portIndex (frameDelimiter :: (body ++ [frameDelimiter])) =
      ⟨.ok, data, some data.length⟩ := by
  obtain ⟨⟨hpos, hmax⟩, rfl⟩ := payloadOf_eq_some_iff.1 h
  obtain ⟨reply, heq, ⟨data', hframe, -, -, rfl⟩ | ⟨-, -, -, hlong⟩⟩ := decodeSerialData_spec
    portIndex (frameDelimiter :: (serialCode.stuff data ++ [frameDelimiter])) queueCapacity
  · obtain rfl : data = data' :=
      serialCode.stuff_injective (List.append_cancel_right (List.cons.inj hframe).2)
    exact Option.get_of_eq_some _ heq
  · exact absurd (hlong data rfl hpos) (by omega)

theorem decode_of_malformed {body : List UInt8} (h : payloadOf body = none) (portIndex : Nat) :
    (decode portIndex (frameDelimiter :: (body ++ [frameDelimiter]))).status =
      .errorInvalidFrame := by
  obtain ⟨reply, heq, ⟨data, hframe, hpos, hfit, rfl⟩ | ⟨-, hstatus, -⟩⟩ := decodeSerialData_spec
    portIndex (frameDelimiter :: (body ++ [frameDelimiter])) queueCapacity
  · have hsome : payloadOf body = some data := payloadOf_eq_some_iff.2
      ⟨⟨hpos, by omega⟩, List.append_cancel_right (List.cons.inj hframe).2⟩
    rw [h] at hsome
    exact absurd hsome (by simp)
  · rw [decode, Option.get_of_eq_some _ heq]
    exact hstatus le_rfl

end Xr17v358
