import GuestBridge.Proofs.Number.Fields
import GuestBridge.Proofs.Wire.DriverText

/-!
# Decoding undoes what the driver does

Every line that the driver writes for a value or for an exception is decoded as this value or
this exception.
-/

namespace GuestBridge.Wire

open Json

variable {fuel depth : Nat} {cs rest : List Char}

/-! ### Values in front of other text -/

/-- Nothing is skipped in front of a character that is no blank. -/
private theorem skipSpace_cons {c : Char} (h : isSpace c = false) (cs : List Char) :
    skipSpace (c :: cs) = c :: cs := by
  simp [skipSpace, h]

/-- A value starts neither with a blank nor with a closing bracket. -/
private theorem head_of_value? {r : Json × List Char} (h : value? fuel depth cs = some r) :
    skipSpace cs = cs ∧ ∀ cs', cs ≠ ']' :: cs' := by
  cases fuel with
  | zero => simp [value?] at h
  | succ fuel =>
    -- No reader of values takes one of these characters.
    have hnone : ∀ c cs', isSpace c ∨ c = ']' → cs ≠ c :: cs' := by
      rintro c cs' hc rfl
      have hcases : c = ' ' ∨ c = '\n' ∨ c = '\t' ∨ c = '\r' ∨ c = ']' := by
        simpa [isSpace, or_assoc] using hc
      rcases hcases with rfl | rfl | rfl | rfl | rfl <;>
        simp [value?, keyword?, Text.dropPrefix?, JsonNumber.read?, JsonNumber.unsigned,
          JsonNumber.gather, Text.isAsciiDigit] at h
    refine ⟨?_, fun cs' ↦ hnone ']' cs' (.inr rfl)⟩
    cases cs with
    | nil => rfl
    | cons c cs =>
      cases hc : isSpace c with
      | false => exact skipSpace_cons hc cs
      | true => exact absurd rfl (hnone c cs (.inl hc))

/-- Items start neither with a blank nor with a closing bracket. -/
private theorem head_of_items? {r : List Json × List Char} (h : items? fuel depth cs = some r) :
    skipSpace cs = cs ∧ ∀ cs', cs ≠ ']' :: cs' := by
  cases fuel with
  | zero => simp [items?] at h
  | succ fuel =>
    rw [items?] at h
    cases hv : value? fuel depth cs with
    | none => simp [hv] at h
    | some r => exact head_of_value? hv

/-- Reading a number starts at a digit or at a sign. -/
private theorem head_of_read? {left : List Char} {n : JsonNumber}
    (h : JsonNumber.read? cs = some (n, left)) :
    ∃ c cs', cs = c :: cs' ∧ (Text.isAsciiDigit c ∨ c = '-') := by
  cases cs with
  | nil => simp [JsonNumber.read?, JsonNumber.unsigned, JsonNumber.gather] at h
  | cons c cs =>
    refine ⟨c, cs, rfl, ?_⟩
    by_cases hminus : c = '-'
    · exact .inr hminus
    · left
      cases hd : Text.isAsciiDigit c with
      | true => rfl
      | false =>
        simp [JsonNumber.read?, hminus, JsonNumber.unsigned, JsonNumber.gather, hd] at h

/-- A number is read as a value. -/
private theorem value?_number {n : JsonNumber} (h : JsonNumber.read? cs = some (n, rest)) :
    value? (fuel + 1) depth cs = some (.number n, rest) := by
  obtain ⟨c, cs', rfl, hc⟩ := head_of_read? h
  have hne : ∀ d : Char, Text.isAsciiDigit d = false → d ≠ '-' → c ≠ d := by
    rintro d hd hminus rfl
    rcases hc with hc | hc
    · rw [hd] at hc
      cases hc
    · exact hminus hc
  have hquote := hne '"' (by decide) (by decide)
  have hbracket := hne '[' (by decide) (by decide)
  have hbrace := hne '\x7b' (by decide) (by decide)
  have hn := hne 'n' (by decide) (by decide)
  have ht := hne 't' (by decide) (by decide)
  have hf := hne 'f' (by decide) (by decide)
  have hkeyword : keyword? (c :: cs') = none := by
    simp [keyword?, Text.dropPrefix?, Ne.symm hn, Ne.symm ht, Ne.symm hf]
  simp [value?, hquote, hbracket, hbrace, hkeyword, h]

/-- A text starts with its quote. -/
private theorem driverString_append (s : String) (cs : List Char) :
    driverString s ++ cs = '"' :: (s.toList.flatMap driverChar ++ '"' :: cs) := by
  simp [driverString]

/-- A text has no blank in front. -/
private theorem skipSpace_driverString (s : String) (cs : List Char) :
    skipSpace (driverString s ++ cs) = driverString s ++ cs := by
  rw [driverString_append, skipSpace_cons (by decide)]

/-- A text is read as a value. -/
private theorem value?_driverString (s : String) (rest : List Char) :
    value? (fuel + 1) depth (driverString s ++ rest) = some (.str s, rest) := by
  have hread := string?_driverString s rest
  rw [driverString_append] at hread ⊢
  rw [value?, hread]
  rfl

/-- An array is read from its first item on. -/
private theorem value?_array {js : List Json} (h : items? fuel depth cs = some (js, rest)) :
    value? (fuel + 1) (depth + 1) ('[' :: cs) = some (.array js, rest) := by
  obtain ⟨hskip, hclose⟩ := head_of_items? h
  rw [value?]
  simp [hskip, h]

/-- The last item of an array is read. -/
private theorem items?_last {j : Json} (h : value? fuel depth cs = some (j, ']' :: rest)) :
    items? (fuel + 1) depth cs = some ([j], rest) := by
  rw [items?, h]
  simp [skipSpace_cons (show isSpace ']' = false by decide)]

/-- An item of an array is read, and the others after it. -/
private theorem items?_next {j : Json} {js : List Json} {more : List Char}
    (h : value? fuel depth cs = some (j, ',' :: more))
    (hmore : items? fuel depth more = some (js, rest)) :
    items? (fuel + 1) depth cs = some (j :: js, rest) := by
  rw [items?, h]
  simp only [skipSpace_cons (show isSpace ',' = false by decide), (head_of_items? hmore).1, hmore]
  rfl

/-! ### Objects -/

/-- A key of an object is read with its colon. -/
private theorem key_driver (key : String) (hskip : skipSpace cs = cs) :
    ((string? (driverString key ++ ':' :: cs)).bind fun (key, rest) ↦
      (colon? rest).map (key, ·)) = some (key, cs) := by
  have hcolon : colon? (':' :: cs) = some cs := by
    simp only [colon?, skipSpace_cons (show isSpace ':' = false by decide), hskip]
  rw [string?_driverString]
  simp [hcolon]

/-- The last member of an object is read. -/
private theorem members?_last (members : List (String × Json)) (key : String) {j : Json}
    (h : value? fuel depth cs = some (j, '\x7d' :: rest)) :
    members? (fuel + 1) depth members (driverString key ++ ':' :: cs) =
      some (insertMember key j members, rest) := by
  rw [members?, key_driver key (head_of_value? h).1]
  simp only [h, skipSpace_cons (show isSpace '\x7d' = false by decide)]

/-- A member of an object is read, and the next one after it. -/
private theorem members?_next (members : List (String × Json)) (key key' : String) {j : Json}
    (h : value? fuel depth cs = some (j, ',' :: (driverString key' ++ rest))) :
    members? (fuel + 1) depth members (driverString key ++ ':' :: cs) =
      members? fuel depth (insertMember key j members) (driverString key' ++ rest) := by
  rw [members?, key_driver key (head_of_value? h).1]
  rw [driverString_append] at h ⊢
  simp only [h, skipSpace_cons (show isSpace ',' = false by decide),
    skipSpace_cons (show isSpace '"' = false by decide)]

/-- An object is read from its first member on. -/
private theorem value?_object {key : String} {members : List (String × Json)}
    (h : members? fuel depth [] (driverString key ++ cs) = some (members, rest)) :
    value? (fuel + 1) (depth + 1) ('\x7b' :: (driverString key ++ cs)) =
      some (.object members, rest) := by
  rw [driverString_append] at h ⊢
  rw [value?]
  simp [skipSpace_cons (show isSpace '"' = false by decide), h]

/-- An object with one member is read. -/
private theorem value?_driverObject (key : String) {value : List Char} {j : Json}
    (h : value? fuel depth (value ++ '\x7d' :: rest) = some (j, '\x7d' :: rest)) :
    value? (fuel + 2) (depth + 1) (driverObject key value ++ rest) =
      some (.object [(key, j)], rest) := by
  have hmembers := members?_last [] key h
  have hread := value?_object hmembers
  simpa [driverObject, insertMember] using hread

/-- An object with two members is read. -/
private theorem value?_driverPair (key key' : String) {value value' : List Char} {j j' : Json}
    (h : ∀ c cs, JsonNumber.isStop c → value? (fuel + 1) depth (value ++ c :: cs) =
      some (j, c :: cs))
    (h' : value? fuel depth (value' ++ '\x7d' :: rest) = some (j', '\x7d' :: rest)) :
    value? (fuel + 3) (depth + 1) (driverPair key value key' value' ++ rest) =
      some (.object (insertMember key' j' [(key, j)]), rest) := by
  have hlast := members?_last [(key, j)] key' h'
  have hnext := members?_next [] key key'
    (h ',' (driverString key' ++ ':' :: (value' ++ '\x7d' :: rest)) (by decide))
  rw [insertMember, hlast] at hnext
  have hread := value?_object hnext
  simpa [driverPair] using hread

/-! ### Decoding -/

/-- A JSON value is decoded as a value, whoever owns its handles. -/
private def Undoes (j : Json) (v : Value) : Prop :=
  ∀ l, ∃ v' l', decode j l = (.ok v', l') ∧ v'.shown id = v.shown id

/-- JSON values are decoded as values, whoever owns their handles. -/
private def UndoesAll (js : List Json) (vs : List Value) : Prop :=
  ∀ done l, ∃ vs' l', decodeItems done js l = (.ok (done ++ vs'), l') ∧
    Value.shownAll id vs' = Value.shownAll id vs

/-- A JSON value that needs no owner is decoded as it is. -/
private theorem undoes_of_decode {j : Json} {v w : Value} (h : ∀ l, decode j l = (.ok w, l))
    (hshown : w.shown id = v.shown id) : Undoes j v :=
  fun l ↦ ⟨w, l, h l, hshown⟩

/-- No JSON value is decoded as no value. -/
private theorem undoesAll_nil : UndoesAll [] [] :=
  fun done l ↦ ⟨[], l, by simp [decodeItems], rfl⟩

/-- JSON values are decoded one after another. -/
private theorem undoesAll_cons {j : Json} {js : List Json} {v : Value} {vs : List Value}
    (h : Undoes j v) (hs : UndoesAll js vs) : UndoesAll (j :: js) (v :: vs) := by
  intro done l
  obtain ⟨v', l', hdecode, hshown⟩ := h l
  obtain ⟨vs', l'', hdecodes, hshowns⟩ := hs (done ++ [v']) l'
  refine ⟨v' :: vs', l'', ?_, by rw [Value.shownAll, Value.shownAll, hshown, hshowns]⟩
  rw [decodeItems, hdecode]
  simpa using hdecodes

/-- The items of an array are decoded. -/
private theorem undoes_array {js : List Json} {vs : List Value} (h : UndoesAll js vs) :
    Undoes (.array js) (.array vs) := by
  intro l
  obtain ⟨vs', l', hdecode, hshown⟩ := h [] l
  refine ⟨.array vs', l', ?_, by rw [Value.shown, Value.shown, hshown]⟩
  rw [decode, hdecode]
  rfl

/-- The components of a tuple are decoded. -/
private theorem undoes_tuple {js : List Json} {vs : List Value} (h : UndoesAll js vs) :
    Undoes (.object [("tuple", .array js)]) (.tuple vs) := by
  intro l
  obtain ⟨vs', l', hdecode, hshown⟩ := h [] l
  refine ⟨.tuple vs', l', ?_, by rw [Value.shown, Value.shown, hshown]⟩
  rw [decode, decodeTuple?, if_pos rfl, hdecode]
  rfl

/-- A handle is decoded. -/
private theorem undoes_handle {h : Handle} (hid : h.id < UInt64.size) :
    Undoes (.object [("handle", .number (.natural (UInt64.ofNat h.id))), ("type", .str h.typeName)])
      (.handle h) := by
  intro l
  refine ⟨.handle (l.own h.id h.typeName).1, (l.own h.id h.typeName).2, ?_, ?_⟩
  · have hsame : (UInt64.ofNat h.id).toNat = h.id := by
      rw [UInt64.toNat_ofNat', Nat.mod_eq_of_lt hid]
    generalize UInt64.ofNat h.id = n at hsame ⊢
    simp [decode, decodeTuple?, withoutTuple, decodeObject, member?, hsame]
  · rfl

/-! ### Floating-point numbers -/

/-- A floating-point number by its name is read and decoded. -/
private theorem value?_special (name : String) (hfuel : 3 ≤ fuel) (hdepth : 1 ≤ depth) :
    value? fuel depth (driverObject "float" (driverString name) ++ rest) =
      some (.object [("float", .str name)], rest) := by
  obtain ⟨fuel, rfl⟩ := Nat.exists_eq_add_of_le' hfuel
  obtain ⟨depth, rfl⟩ := Nat.exists_eq_add_of_le' hdepth
  exact value?_driverObject "float" (value?_driverString name _)

/-- A floating-point number by its name is decoded. -/
private theorem undoes_special {name : String} {x y : Binary64} (h : specialFloat? name = some y)
    (hshown : (Value.float y).shown id = (Value.float x).shown id) :
    Undoes (.object [("float", .str name)]) (.float x) := by
  refine undoes_of_decode (w := .float y) (fun l ↦ ?_) hshown
  simp [decode, decodeTuple?, withoutTuple, decodeObject, member?, h]

/-- A floating-point number is read and decoded. -/
private theorem value?_float {float : Binary64 → List Char} {x : Binary64}
    (hrest : JsonNumber.Stops rest) (hfloat : x.isFinite → FloatText x (float x))
    (hfuel : (driverText float (.float x)).length < fuel)
    (hdepth : (Value.float x).levels ≤ depth) :
    ∃ j, value? fuel depth (driverText float (.float x) ++ rest) = some (j, rest) ∧
      Undoes j (.float x) := by
  by_cases hfinite : x.isFinite
  · have hnan : x.isNaN = false := by simp_all [Binary64.isNaN, Binary64.isFinite]
    have hinf : x.isInfinite = false := by simp_all [Binary64.isInfinite, Binary64.isFinite]
    obtain ⟨hread, -⟩ := hfloat hfinite
    have hbefore := JsonNumber.read?_append hrest (float x)
    rw [hread] at hbefore
    obtain ⟨fuel, rfl⟩ := Nat.exists_eq_add_of_lt hfuel
    refine ⟨.number (.float x), ?_, undoes_of_decode (fun _ ↦ rfl) rfl⟩
    simp only [driverText, hnan, hinf]
    exact value?_number hbefore
  · have hfield : x.exponentField = 2047 := by simpa [Binary64.isFinite] using hfinite
    have hone : 1 ≤ depth := by simpa [Value.levels, hfinite] using hdepth
    by_cases hnan : x.isNaN
    · have htext : driverText float (.float x) = driverObject "float" (driverString "NaN") := by
        simp [driverText, hnan]
      rw [htext] at hfuel ⊢
      refine ⟨_, value?_special "NaN" ?_ hone, undoes_special rfl ?_⟩
      · simp only [driverObject, List.length_append, List.length_cons] at hfuel
        omega
      · simp [Value.shown, hnan, show Binary64.nan.isNaN = true by decide]
    · have hinf : x.isInfinite = true := by
        simp_all [Binary64.isInfinite, Binary64.isNaN]
      have htext : driverText float (.float x) =
          driverObject "float" (driverString (if x.negative then "-Inf" else "Inf")) := by
        simp [driverText, hnan, hinf]
      rw [htext] at hfuel ⊢
      refine ⟨_, value?_special _ ?_ hone, undoes_special (y := x) ?_ rfl⟩
      · simp only [driverObject, List.length_append, List.length_cons] at hfuel
        omega
      · rw [Binary64.eq_infinity hinf]
        cases x.negative <;> rfl

/-! ### Values -/

/-- A guest's way to write floating-point numbers, and ids that fit into 64 bits. -/
private structure Written (float : Binary64 → List Char) (xs : List Binary64)
    (hs : List Handle) : Prop where
  floats : ∀ x ∈ xs, x.isFinite → FloatText x (float x)
  ids : ∀ h ∈ hs, h.id < UInt64.size

/-- What holds for a list holds for its first part and for its second. -/
private theorem written_append {float : Binary64 → List Char} {xs ys : List Binary64}
    {hs ks : List Handle} (h : Written float (xs ++ ys) (hs ++ ks)) :
    Written float xs hs ∧ Written float ys ks :=
  ⟨⟨fun x hx ↦ h.floats x (List.mem_append_left _ hx),
      fun k hk ↦ h.ids k (List.mem_append_left _ hk)⟩,
    ⟨fun x hx ↦ h.floats x (List.mem_append_right _ hx),
      fun k hk ↦ h.ids k (List.mem_append_right _ hk)⟩⟩

/-- Items between brackets are read as an array. -/
private theorem value?_group {float : Binary64 → List Char} {vs : List Value}
    (h : vs ≠ [] → ∃ js, items? fuel depth (driverItems float vs ++ ']' :: rest) =
      some (js, rest) ∧ UndoesAll js vs) :
    ∃ js, value? (fuel + 1) (depth + 1) ('[' :: driverItems float vs ++ ']' :: rest) =
      some (.array js, rest) ∧ UndoesAll js vs := by
  cases vs with
  | nil =>
    refine ⟨[], ?_, undoesAll_nil⟩
    simp [driverItems, value?, skipSpace_cons (show isSpace ']' = false by decide)]
  | cons v vs =>
    obtain ⟨js, hread, hdecode⟩ := h (by simp)
    exact ⟨js, value?_array hread, hdecode⟩

/-- An object with an array is read as a tuple. -/
private theorem value?_tuple {float : Binary64 → List Char} {vs : List Value}
    (h : vs ≠ [] → ∃ js, items? fuel depth (driverItems float vs ++ ']' :: '\x7d' :: rest) =
      some (js, '\x7d' :: rest) ∧ UndoesAll js vs) :
    ∃ j, value? (fuel + 3) (depth + 2) (driverText float (.tuple vs) ++ rest) =
      some (j, rest) ∧ Undoes j (.tuple vs) := by
  obtain ⟨js, hread, hdecode⟩ := value?_group h
  refine ⟨_, ?_, undoes_tuple hdecode⟩
  have hobject : value? (fuel + 3) (depth + 2)
      (driverObject "tuple" ('[' :: driverItems float vs ++ [']']) ++ rest) =
        some (.object [("tuple", .array js)], rest) :=
    value?_driverObject "tuple" (by simpa using hread)
  simpa [driverText] using hobject

/-- A text that starts with a stop, stops. -/
private theorem stops_cons {c : Char} (h : JsonNumber.isStop c) (cs : List Char) :
    JsonNumber.Stops (c :: cs) :=
  Text.forall_head?_cons h cs

/-- A handle is read and decoded. -/
private theorem value?_handle (float : Binary64 → List Char) {h : Handle}
    (hid : h.id < UInt64.size) (hfuel : 4 ≤ fuel) (hdepth : 1 ≤ depth) :
    ∃ j, value? fuel depth (driverText float (.handle h) ++ rest) = some (j, rest) ∧
      Undoes j (.handle h) := by
  obtain ⟨fuel, rfl⟩ := Nat.exists_eq_add_of_le' hfuel
  obtain ⟨depth, rfl⟩ := Nat.exists_eq_add_of_le' hdepth
  refine ⟨_, ?_, undoes_handle hid⟩
  have hnumber : ∀ c cs, JsonNumber.isStop c →
      value? (fuel + 2) depth (Nat.toDigits 10 h.id ++ c :: cs) =
        some (.number (.natural (UInt64.ofNat h.id)), c :: cs) := by
    intro c cs hc
    exact value?_number (JsonNumber.read?_nat (stops_cons hc cs) (Nat.le_of_lt_succ hid))
  have hname : value? (fuel + 1) depth (driverString h.typeName ++ '\x7d' :: rest) =
      some (.str h.typeName, '\x7d' :: rest) := value?_driverString h.typeName _
  have hpair := value?_driverPair "handle" "type" hnumber hname
  rw [insertMember, if_neg (by decide), if_neg (by decide), insertMember] at hpair
  simpa [driverText] using hpair

mutual

/-- What the driver writes for a value is read and decoded as this value. -/
private theorem value?_driverText (float : Binary64 → List Char) (v : Value)
    {fuel depth : Nat} {rest : List Char} (hrest : JsonNumber.Stops rest)
    (hw : Written float v.floats v.handles) (hfuel : (driverText float v).length < fuel)
    (hdepth : v.levels ≤ depth) :
    ∃ j, value? fuel depth (driverText float v ++ rest) = some (j, rest) ∧ Undoes j v := by
  cases v with
  | nothing =>
    obtain ⟨fuel, rfl⟩ := Nat.exists_eq_add_of_lt hfuel
    exact ⟨.null, by simp [driverText, value?, keyword?, Text.dropPrefix?],
      undoes_of_decode (fun _ ↦ rfl) rfl⟩
  | bool b =>
    obtain ⟨fuel, rfl⟩ := Nat.exists_eq_add_of_lt hfuel
    refine ⟨.bool b, ?_, undoes_of_decode (fun _ ↦ rfl) rfl⟩
    cases b <;> simp [driverText, value?, keyword?, Text.dropPrefix?]
  | int n =>
    obtain ⟨fuel, rfl⟩ := Nat.exists_eq_add_of_lt hfuel
    obtain ⟨j, hread, hdecode⟩ := JsonNumber.read?_int hrest n
    refine ⟨.number j, value?_number hread, undoes_of_decode (fun l ↦ ?_) rfl⟩
    rw [decode, hdecode]
  | float x =>
    exact value?_float hrest (hw.floats x (List.mem_singleton.2 rfl)) hfuel hdepth
  | str s =>
    obtain ⟨fuel, rfl⟩ := Nat.exists_eq_add_of_lt hfuel
    exact ⟨.str s, value?_driverString s rest, undoes_of_decode (fun _ ↦ rfl) rfl⟩
  | array vs =>
    simp only [driverText, List.length_append, List.length_cons, List.length_nil] at hfuel
    simp only [Value.levels] at hdepth
    obtain ⟨fuel, rfl⟩ := Nat.exists_eq_add_of_le' (show 1 ≤ fuel by omega)
    obtain ⟨depth, rfl⟩ := Nat.exists_eq_add_of_le' (show 1 ≤ depth by omega)
    have hlength : (driverItems float vs).length + 1 < fuel := by omega
    have hlevels : Value.levelsAll vs ≤ depth := by omega
    obtain ⟨js, hread, hdecode⟩ :=
      value?_group fun hne ↦ items?_driverItems float vs rest hne hw hlength hlevels
    exact ⟨_, by simpa [driverText] using hread, undoes_array hdecode⟩
  | tuple vs =>
    simp only [driverText, driverObject, List.length_append, List.length_cons,
      List.length_nil] at hfuel
    simp only [Value.levels] at hdepth
    obtain ⟨fuel, rfl⟩ := Nat.exists_eq_add_of_le' (show 3 ≤ fuel by omega)
    obtain ⟨depth, rfl⟩ := Nat.exists_eq_add_of_le' (show 2 ≤ depth by omega)
    have hlength : (driverItems float vs).length + 1 < fuel := by omega
    have hlevels : Value.levelsAll vs ≤ depth := by omega
    exact value?_tuple fun hne ↦
      items?_driverItems float vs ('\x7d' :: rest) hne hw hlength hlevels
  | handle h =>
    simp only [driverText, driverPair, List.length_append, List.length_cons,
      List.length_nil] at hfuel
    have hid := hw.ids h (List.mem_singleton.2 rfl)
    exact value?_handle float hid (by omega) hdepth

/-- What the driver writes for the items of an array is read and decoded as these items. -/
private theorem items?_driverItems (float : Binary64 → List Char) (vs : List Value)
    {fuel depth : Nat} (rest : List Char) (hne : vs ≠ [])
    (hw : Written float (Value.floatsAll vs) (Value.handlesAll vs))
    (hfuel : (driverItems float vs).length + 1 < fuel) (hdepth : Value.levelsAll vs ≤ depth) :
    ∃ js, items? fuel depth (driverItems float vs ++ ']' :: rest) = some (js, rest) ∧
      UndoesAll js vs := by
  obtain ⟨fuel, rfl⟩ := Nat.exists_eq_add_of_le' (show 1 ≤ fuel by omega)
  match vs with
  | [v] =>
    obtain ⟨hv, -⟩ := written_append hw
    simp only [driverItems] at hfuel
    simp only [Value.levelsAll] at hdepth
    have hlength : (driverText float v).length < fuel := by omega
    have hlevels : v.levels ≤ depth := by omega
    have hstops := stops_cons (show JsonNumber.isStop ']' by decide) rest
    obtain ⟨j, hread, hdecode⟩ := value?_driverText float v hstops hv hlength hlevels
    exact ⟨[j], items?_last hread, undoesAll_cons hdecode undoesAll_nil⟩
  | v :: w :: vs =>
    obtain ⟨hv, hvs⟩ := written_append hw
    simp only [driverItems, List.length_append, List.length_cons] at hfuel
    rw [Value.levelsAll] at hdepth
    have hlength : (driverText float v).length < fuel := by omega
    have hlengths : (driverItems float (w :: vs)).length + 1 < fuel := by omega
    have hlevels : v.levels ≤ depth := by omega
    have hlevelss : Value.levelsAll (w :: vs) ≤ depth := by omega
    have hstops := stops_cons (show JsonNumber.isStop ',' by decide)
      (driverItems float (w :: vs) ++ ']' :: rest)
    obtain ⟨j, hread, hdecode⟩ := value?_driverText float v hstops hv hlength hlevels
    obtain ⟨js, hreads, hdecodes⟩ :=
      items?_driverItems float (w :: vs) rest (by simp) hvs hlengths hlevelss
    refine ⟨j :: js, ?_, undoesAll_cons hdecode hdecodes⟩
    simpa [driverItems] using items?_next hread hreads

end

/-! ### Lines -/

/-- Blanks at the end of a text are trimmed. -/
private theorem trimEnd_append (cs : List Char) {c : Char} {blanks : List Char}
    (hc : Text.isBlank c = false) (h : ∀ b ∈ blanks, Text.isBlank b) :
    Text.trimEnd (cs ++ c :: blanks) = cs ++ [c] := by
  have hreverse : (cs ++ c :: blanks).reverse = blanks.reverse ++ c :: cs.reverse := by simp
  rw [Text.trimEnd, hreverse, List.dropWhile_append_of_pos fun b hb ↦ h b (List.mem_reverse.1 hb),
    List.dropWhile_cons_of_neg (by simp [hc])]
  simp

/-- A reply line is read by its one member. -/
private theorem parse?_line {key : String} {value blanks : List Char} {reply : ReplyText}
    (hblanks : ∀ b ∈ blanks, Text.isBlank b)
    (h : ReplyText.member? (driverString key ++ ':' :: (value ++ ['\x7d'])) =
      some (reply, ['\x7d'])) :
    ReplyText.parse? (String.ofList (driverObject key value ++ blanks)) = some reply := by
  have htrim : Text.trimEnd (driverObject key value ++ blanks) =
      '\x7b' :: (driverString key ++ ':' :: (value ++ ['\x7d'])) := by
    have hsplit : driverObject key value ++ blanks =
        '\x7b' :: driverString key ++ ':' :: value ++ '\x7d' :: blanks := by simp [driverObject]
    rw [hsplit, trimEnd_append _ (by decide) hblanks]
    simp
  rw [ReplyText.parse?, String.toList_ofList, htrim,
    skipSpace_cons (show isSpace '\x7b' = false by decide)]
  simp only [skipSpace_driverString, h]
  rfl

/-- The value of a reply is read and decoded. -/
private theorem member?_ok {float : Binary64 → List Char} {v : Value}
    (hw : Written float v.floats v.handles) (hdepth : v.levels < ReplyText.depthLimit) :
    ∃ j, ReplyText.member? (driverString "ok" ++ ':' :: (driverText float v ++ ['\x7d'])) =
      some (.ok j, ['\x7d']) ∧ Undoes j v := by
  have hlength : (driverText float v).length < (driverText float v ++ ['\x7d']).length + 1 := by
    simp only [List.length_append]
    omega
  obtain ⟨j, hread, hdecode⟩ := value?_driverText float v
    (stops_cons (show JsonNumber.isStop '\x7d' by decide) []) hw hlength
    (Nat.le_sub_one_of_lt hdepth)
  refine ⟨j, ?_, hdecode⟩
  rw [ReplyText.member?, key_driver "ok" (head_of_value? hread).1]
  simp only [hread]
  rfl

/-- The type of an exception is read. -/
private theorem errMembers_type (kind key : String) (cs : List Char) :
    ReplyText.errMembers (fuel + 1) none none
      (driverString "type" ++ ':' :: (driverString kind ++ ',' :: (driverString key ++ cs))) =
        ReplyText.errMembers fuel (some kind) none (driverString key ++ cs) := by
  rw [ReplyText.errMembers, key_driver "type" (skipSpace_driverString kind _)]
  simp only [string?_driverString]
  rfl

/-- The message of an exception is read behind its type. -/
private theorem errMembers_message (kind message : String) (rest : List Char) :
    ReplyText.errMembers (fuel + 1) (some kind) none
      (driverString "message" ++ ':' :: (driverString message ++ '\x7d' :: rest)) =
        some ((kind, message), rest) := by
  rw [ReplyText.errMembers, key_driver "message" (skipSpace_driverString message _)]
  simp [string?_driverString, skipSpace_cons (show isSpace '\x7d' = false by decide)]

/-- The type and the message of an exception are read. -/
private theorem member?_err (kind message : String) :
    ReplyText.member? (driverString "err" ++ ':' ::
      (driverPair "type" (driverString kind) "message" (driverString message) ++ ['\x7d'])) =
        some (.err kind message, ['\x7d']) := by
  have hpair : driverPair "type" (driverString kind) "message" (driverString message) ++
      ['\x7d'] = '\x7b' :: (driverString "type" ++ ':' :: (driverString kind ++ ',' ::
        (driverString "message" ++ ':' :: (driverString message ++ ['\x7d', '\x7d'])))) := by
    simp [driverPair]
  rw [hpair, ReplyText.member?, key_driver "err" (skipSpace_cons (by decide) _)]
  simp only [ReplyText.raised?, skipSpace_driverString]
  rw [driverString_append "type", List.length_cons, ← driverString_append "type",
    errMembers_type, errMembers_message]
  rfl

/-- What the driver writes is decoded as what it was given, blanks at the end of the line
aside: a value as this value, up to the owners of its handles, and an exception as this
exception. -/
theorem decodeReply_driver (float : Binary64 → List Char) (blanks : List Char)
    (hblanks : ∀ b ∈ blanks, Text.isBlank b) (l : Ledger) :
    (∀ v : Value, (∀ x ∈ v.floats, x.isFinite → FloatText x (float x)) →
      (∀ h ∈ v.handles, h.id < UInt64.size) → v.levels < ReplyText.depthLimit →
        ∃ v' l', decodeReply (String.ofList (driverReply float v ++ blanks)) l = (.ok v', l') ∧
          v'.shown id = v.shown id) ∧
      ∀ kind message, decodeReply (String.ofList (driverFailure kind message ++ blanks)) l =
        (.error (.raised kind message), l) := by
  refine ⟨fun v hfloats hids hlevels ↦ ?_, fun kind message ↦ ?_⟩
  · obtain ⟨j, hread, hdecode⟩ := member?_ok ⟨hfloats, hids⟩ hlevels
    obtain ⟨v', l', hvalue, hshown⟩ := hdecode l
    refine ⟨v', l', ?_, hshown⟩
    rw [decodeReply, driverReply, parse?_line hblanks hread]
    simp only [hvalue]
  · rw [decodeReply, driverFailure, parse?_line hblanks (member?_err kind message)]

/-- A tuple in an array comes back, with a number, an escaped text and a handle in it. -/
theorem decodeReply_driver_nested :
    let float := fun _ : Binary64 ↦ "1.5".toList
    let v := Value.array [.float ⟨0x3FF8000000000000⟩,
      .tuple [.str "\"$\n", .handle (.permanent 7 "Dict")]]
    ∃ v' l', decodeReply (String.ofList (driverReply float v ++ [' ', '\n'])) ⟨[], []⟩ =
      (.ok v', l') ∧ v'.shown id = v.shown id := by
  intro float v
  refine (decodeReply_driver float [' ', '\n'] (List.all_eq_true.1 (by decide)) ⟨[], []⟩).1 v
    ?_ ?_ (by decide)
  · intro x hx _
    obtain rfl : x = ⟨0x3FF8000000000000⟩ := by
      simpa [v, Value.floats, Value.floatsAll] using hx
    exact ⟨by decide +kernel, by decide⟩
  · intro h hh
    obtain rfl : h = .permanent 7 "Dict" := by
      simpa [v, Value.handles, Value.handlesAll] using hh
    decide

end GuestBridge.Wire
