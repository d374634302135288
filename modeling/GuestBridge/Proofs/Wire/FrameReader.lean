import GuestBridge.Channel.Link
import GuestBridge.Proofs.Number.DecimalText
import GuestBridge.Proofs.Text.Pieces

/-!
# Reading frames

The driver of a guest reads its input in a loop: a line, cut into words at white space, says
how many bytes of code come behind it, and its other words are the released ids. Here is this
loop on the level of bytes. Read with it, the bytes of frames come apart into the requests
that were sent, whatever their code looks like.
-/

namespace GuestBridge.Wire

/-- The bytes of a text. -/
def utf8 (s : String) : List UInt8 :=
  s.toUTF8.data.toList

namespace FrameReader

/-- The bytes of the first line without its end, and what comes behind it. -/
def cutLine (bytes : List UInt8) : List UInt8 × List UInt8 :=
  (bytes.takeWhile (· ≠ 10), (bytes.dropWhile (· ≠ 10)).tail)

/-- The numbers of a line, which must be such that the guest's integers hold them. -/
def numbers? (holds : Nat → Bool) (line : List UInt8) : Option (List Nat) :=
  (Channel.text? line).bind fun text ↦
    (Text.words text.toList).mapM fun word ↦ (Text.natural? word).filter holds

/-- Read a frame: the released ids and the code, and what comes behind them. -/
def frame? (holds : Nat → Bool) (bytes : List UInt8) :
    Option ((List Nat × String) × List UInt8) :=
  match numbers? holds (cutLine bytes).1 with
  | some (length :: released) =>
    let rest := (cutLine bytes).2
    if length ≤ rest.length then
      (Channel.text? (rest.take length)).map fun code ↦ ((released, code), rest.drop length)
    else none
  | _ => none

/-- A frame takes up bytes. -/
theorem length_lt_of_frame? {holds : Nat → Bool} {bytes rest : List UInt8}
    {request : List Nat × String} (h : frame? holds bytes = some (request, rest)) :
    rest.length < bytes.length := by
  have hne : bytes ≠ [] := by
    rintro rfl
    have hnone : frame? holds [] = none := rfl
    rw [hnone] at h
    cases h
  have hline : (cutLine bytes).2.length < bytes.length := by
    have hpos := List.length_pos_iff.2 hne
    have hdrop := (List.dropWhile_suffix (l := bytes) (· ≠ 10)).length_le
    rw [cutLine, List.length_tail]
    omega
  have hrest : rest.length ≤ (cutLine bytes).2.length := by
    simp only [frame?] at h
    split at h
    · split at h
      · obtain ⟨code, -, heq⟩ := Option.map_eq_some_iff.1 h
        obtain ⟨-, rfl⟩ := Prod.ext_iff.1 heq
        rw [List.length_drop]
        omega
      · cases h
    · cases h
  omega

/-- Read frames up to the end of the input. -/
def serve (holds : Nat → Bool) (bytes : List UInt8) : Option (List (List Nat × String)) :=
  if bytes = [] then some []
  else
    match h : frame? holds bytes with
    | none => none
    | some (request, rest) =>
      have := length_lt_of_frame? h
      (serve holds rest).map (request :: ·)
termination_by bytes.length

/-! ### Bytes of texts -/

/-- The bytes of a text behind another one. -/
theorem utf8_append (s t : String) : utf8 (s ++ t) = utf8 s ++ utf8 t := by
  simp [utf8]

/-- The bytes of a text are read as this text. -/
theorem text?_utf8 (s : String) : Channel.text? (utf8 s) = some s := by
  have hbytes : (⟨(utf8 s).toArray⟩ : ByteArray) = s.toByteArray := rfl
  rw [Channel.text?, hbytes, String.fromUTF8?, dif_pos s.isValidUTF8]
  rfl

/-- A text has as many bytes as it says. -/
theorem length_utf8 (s : String) : (utf8 s).length = s.utf8ByteSize := by
  rfl

/-- A byte with the code of a line feed is the code of a line feed. -/
theorem newline_of_mem_encode {c : Char} (h : 10 ∈ String.utf8EncodeChar c) : c = '\n' := by
  have hbyte : ∀ n < 256, 10 = UInt8.ofNat n → n = 10 := by
    intro n hlt heq
    have hnat := congrArg UInt8.toNat heq
    rw [UInt8.toNat_ofNat_of_lt' hlt] at hnat
    exact hnat.symm
  unfold String.utf8EncodeChar at h
  extract_lets v at h
  split_ifs at h with hone htwo hthree
  · have hv : v = 10 := hbyte v (by omega) (by simpa using h)
    exact Char.ext (UInt32.toNat_inj.1 hv)
  -- The bytes of a longer code are all at least 128.
  all_goals simp only [List.mem_cons, List.not_mem_nil, or_false] at h
  · rcases h with h | h <;> have := hbyte _ (by omega) h <;> omega
  · rcases h with h | h | h <;> have := hbyte _ (by omega) h <;> omega
  · rcases h with h | h | h | h <;> have := hbyte _ (by omega) h <;> omega

/-- A text without line feeds has no byte that ends a line. -/
theorem newline_notMem_utf8 {s : String} (h : '\n' ∉ s.toList) : 10 ∉ utf8 s := by
  intro hmem
  have hbytes : s.toByteArray = s.toList.utf8Encode := by simp
  rw [utf8, String.toUTF8, hbytes, List.utf8Encode, List.data_toByteArray,
    List.mem_flatMap] at hmem
  obtain ⟨c, hc, hcode⟩ := hmem
  exact h (newline_of_mem_encode hcode ▸ hc)

/-- A line and what comes behind it. -/
theorem cutLine_utf8 {s : String} (h : '\n' ∉ s.toList) (rest : List UInt8) :
    cutLine (utf8 (s ++ "\n") ++ rest) = (utf8 s, rest) := by
  have hend : utf8 "\n" = [10] := by decide
  have hfront : ∀ b ∈ utf8 s, decide (b ≠ 10) = true := by
    intro b hb
    exact decide_eq_true fun hb10 ↦ newline_notMem_utf8 h (hb10 ▸ hb)
  rw [utf8_append, hend, List.append_assoc, List.singleton_append, cutLine,
    List.takeWhile_append_of_pos hfront, List.dropWhile_append_of_pos hfront]
  simp

/-! ### Headers -/

/-- The characters of a header. -/
theorem toList_header (length : Nat) (released : List Nat) :
    (header length released).toList =
      [' '].intercalate ((length :: released).map (Nat.toDigits 10)) := by
  have hdigits : ∀ n : Nat, (toString n).toList = Nat.toDigits 10 n := fun n ↦ by simp
  rw [header, String.toList_intercalate, List.map_map]
  congr 1
  exact List.map_congr_left fun n _ ↦ hdigits n

/-- A header is one line. -/
theorem newline_notMem_header (length : Nat) (released : List Nat) :
    '\n' ∉ (header length released).toList := by
  rw [toList_header]
  intro hmem
  rcases Text.mem_intercalate hmem with h | ⟨digits, hdigits, h⟩
  · simp at h
  · obtain ⟨n, -, rfl⟩ := List.mem_map.1 hdigits
    exact absurd (Text.isAsciiDigit_of_mem_toDigits h) (by decide)

/-- The words of a header are the digits of its numbers. -/
theorem words_header (length : Nat) (released : List Nat) :
    Text.words (header length released).toList =
      (length :: released).map (Nat.toDigits 10) := by
  rw [toList_header]
  refine Text.words_intercalate (by simp) fun word hword ↦ ?_
  obtain ⟨n, -, rfl⟩ := List.mem_map.1 hword
  exact ⟨Nat.toDigits_ne_nil, fun c hc ↦
    Text.isBlank_of_isAsciiDigit (Text.isAsciiDigit_of_mem_toDigits hc)⟩

/-- Numbers are read from their digits, if the guest's integers hold them. -/
theorem mapM_digits (holds : Nat → Bool) (ns : List Nat) :
    ((ns.map (Nat.toDigits 10)).mapM fun word ↦ (Text.natural? word).filter holds) =
      if ns.all holds then some ns else none := by
  induction ns with
  | nil => rfl
  | cons n ns ih =>
    rw [List.map_cons, List.mapM_cons, ih, natural?_toDigits]
    cases hn : holds n <;> cases hall : ns.all holds <;> simp [hn, hall, Option.filter]

/-- The numbers of a header. -/
theorem numbers?_header (holds : Nat → Bool) (length : Nat) (released : List Nat) :
    numbers? holds (utf8 (header length released)) =
      if (length :: released).all holds then some (length :: released) else none := by
  rw [numbers?, text?_utf8, Option.bind_some, words_header, mapM_digits]

/-! ### Frames -/

/-- The guest's integers hold all numbers in the header of a request. -/
def fits (holds : Nat → Bool) (request : List Nat × String) : Bool :=
  holds request.2.utf8ByteSize && request.1.all holds

/-- A frame is read whatever its code looks like and whatever comes behind it. -/
theorem frame?_frame (holds : Nat → Bool) (request : List Nat × String) (rest : List UInt8) :
    frame? holds (utf8 (frame request.2 request.1) ++ rest) =
      if fits holds request then some (request, rest) else none := by
  obtain ⟨released, code⟩ := request
  have hline : cutLine (utf8 (frame code released) ++ rest) =
      (utf8 (header code.utf8ByteSize released), utf8 code ++ rest) := by
    rw [frame, utf8_append, List.append_assoc, cutLine_utf8 (newline_notMem_header _ _)]
  have hlength : (utf8 code).length = code.utf8ByteSize := length_utf8 code
  have hfits : (code.utf8ByteSize :: released).all holds = fits holds (released, code) :=
    List.all_cons
  rw [frame?, hline, numbers?_header, hfits]
  cases fits holds (released, code) with
  | false => rfl
  | true =>
    have hlong : code.utf8ByteSize ≤ (utf8 code ++ rest).length := by
      rw [List.length_append, hlength]
      omega
    simp only [if_true, hlong]
    rw [← hlength, List.take_left, List.drop_left, text?_utf8, Option.map_some]

/-- A frame has bytes. -/
theorem utf8_frame_ne_nil (code : String) (released : List Nat) :
    utf8 (frame code released) ≠ [] := by
  have hend : utf8 "\n" = [10] := by decide
  rw [frame, utf8_append, utf8_append, hend]
  simp

/-- The loop reads a frame and goes on behind it. -/
theorem serve_frame (holds : Nat → Bool) (request : List Nat × String) (rest : List UInt8) :
    serve holds (utf8 (frame request.2 request.1) ++ rest) =
      if fits holds request then (serve holds rest).map (request :: ·) else none := by
  have hframe := frame?_frame holds request rest
  have hne : utf8 (frame request.2 request.1) ++ rest ≠ [] :=
    List.append_ne_nil_of_left_ne_nil (utf8_frame_ne_nil _ _) rest
  rw [serve, if_neg hne]
  cases hfits : fits holds request with
  | false =>
    rw [hfits] at hframe
    split
    · rfl
    · next hsome => simp [hframe] at hsome
  | true =>
    rw [hfits, if_pos rfl] at hframe
    split
    · next hnone => simp [hframe] at hnone
    · next hsome =>
      obtain ⟨rfl, rfl⟩ : request = _ ∧ rest = _ := by simpa [hframe] using hsome
      rfl

/-- Frames one behind the other are read as the requests that they are made of. -/
theorem serve_frames (holds : Nat → Bool) (requests : List (List Nat × String)) :
    serve holds (requests.flatMap fun r ↦ utf8 (frame r.2 r.1)) =
      if requests.all (fits holds) then some requests else none := by
  induction requests with
  | nil => rw [List.flatMap_nil, serve, if_pos rfl, List.all_nil, if_pos rfl]
  | cons request requests ih =>
    rw [List.flatMap_cons, serve_frame, ih, List.all_cons]
    cases fits holds request <;> cases requests.all (fits holds) <;> rfl

/-! ### What is sent -/

/-- A child that takes all that is written to it, and keeps the bytes. -/
def tape : Link (List UInt8) where
  run _ _ bytes := (.ok (), bytes)
  write text bytes := (.ok (), bytes ++ utf8 text)
  readLine bytes := (.ok [], bytes)

/-- The bytes that are sent for requests, behind those sent before: for each request its ids
wait for release when its code is sent. -/
def sendAll (ledger : Ledger) : List (List Nat × String) → List UInt8 → List UInt8
  | [], bytes => bytes
  | (released, code) :: requests, bytes =>
    let world : World (List UInt8) := ⟨bytes, { ledger with pending := released }⟩
    sendAll ledger requests (Channel.send tape code world).2.guest

/-- What is sent for requests are their frames. -/
theorem sendAll_eq (ledger : Ledger) (requests : List (List Nat × String)) (bytes : List UInt8) :
    sendAll ledger requests bytes =
      bytes ++ requests.flatMap fun r ↦ utf8 (frame r.2 r.1) := by
  induction requests generalizing bytes with
  | nil => simp [sendAll]
  | cons request requests ih =>
    rw [sendAll, ih, List.flatMap_cons, ← List.append_assoc]
    rfl

/-- The bytes that are sent for any requests are read as exactly these requests, up to the
last byte. A guest whose integers do not hold all numbers fails to read them, and reads
nothing else. -/
theorem serve_sendAll (ledger : Ledger) (requests : List (List Nat × String)) :
    serve (fun _ ↦ true) (sendAll ledger requests []) = some requests ∧
      ∀ holds, serve holds (sendAll ledger requests []) =
        if requests.all (fits holds) then some requests else none := by
  rw [sendAll_eq, List.nil_append]
  refine ⟨?_, fun holds ↦ serve_frames holds requests⟩
  have hfits : requests.all (fits fun _ ↦ true) := by simp [fits]
  rw [serve_frames, if_pos hfits]

end FrameReader

end GuestBridge.Wire
