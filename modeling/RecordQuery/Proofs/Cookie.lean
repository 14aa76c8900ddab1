import RecordQuery.Proofs.Wire.Parts
import RecordQuery.Query.Paging

/-!
# Cookies are read back

The token of a cookie is an even number of digits, and it is read as the cookie, also with blanks
around it (`Cookie.decode_between`).  Three forms lie one in another: the identifiers as texts, the
members as JSON text and its bytes as hexadecimal digits.
-/

namespace RecordQuery

open Text

/-! ## Blanks -/

namespace Text

theorem isBlank_of_mem_hexAlphabet {c : Char} (h : c ∈ hexAlphabet) : isBlank c = false := by
  have hnone : hexAlphabet.any isBlank = false := by decide
  exact Bool.eq_false_iff.mpr (List.any_eq_false.mp hnone c h)

theorem trimLeft_eq_self {cs : List Char} (h : ∀ c ∈ cs, isBlank c = false) :
    trimLeft cs = cs := by
  cases cs with
  | nil => rfl
  | cons c cs => exact trimLeft_cons (h c (.head _)) cs

theorem trimLeft_append {blanks : List Char} (h : ∀ c ∈ blanks, isBlank c = true)
    (cs : List Char) : trimLeft (blanks ++ cs) = trimLeft cs :=
  List.dropWhile_append_of_pos h

/-- Trimming takes away the blanks around a text that holds none. -/
theorem trimBoth_between {before cs after : List Char} (hbefore : ∀ c ∈ before, isBlank c = true)
    (hcs : ∀ c ∈ cs, isBlank c = false) (hafter : ∀ c ∈ after, isBlank c = true) :
    trimBoth (before ++ (cs ++ after)) = cs := by
  have hend : (trimLeft (cs ++ after).reverse).reverse = cs := by
    rw [List.reverse_append, trimLeft_append fun c hc => hafter c (List.mem_reverse.mp hc),
      trimLeft_eq_self fun c hc => hcs c (List.mem_reverse.mp hc), List.reverse_reverse]
  rw [trimBoth, trimLeft_append hbefore]
  cases cs with
  | nil =>
      have hnone : trimLeft (after ++ []) = [] := trimLeft_append hafter []
      rw [List.append_nil] at hnone
      rw [List.nil_append, hnone]
      rfl
  | cons c cs =>
      rw [List.cons_append, trimLeft_cons (hcs c (.head _)), ← List.cons_append, hend]

end Text

/-! ## JSON form -/

namespace Cookie

/-- The JSON form of a cookie is read back. -/
theorem gives_toJson (c : Cookie) : Json.Gives (fun _ => ofJson?) c.toJson c := by
  have hid : ∀ id : Option RecordId,
      Json.Gives (fun _ j => j.optional? RecordId.ofJson?) (.ofOption RecordId.toJson id) id :=
    fun id => by
      simpa using Json.Gives.ofOption id (fun id _ => id.gives_toJson) fun _ h => nomatch h
  have hpage := Json.gives_uint32 c.page
  refine .of_read (Json.readable_object_iff.mpr ?_) ?_
  · simp [hpage.readable, (hid _).readable]
  · rw [toJson, ofJson?, Json.maxDepth, Json.fields?_object]
    rw [Json.field?_then (by simp [Json.valuesOf]) hpage.eq_some,
      Json.fieldOrNull?_then (by simp [Json.valuesOf]) (hid c.firstId).eq_some,
      Json.fieldOrNull?_then (by simp [Json.valuesOf]) (hid c.lastId).eq_some]

/-! ## Tokens -/

/-- A token is written in digits. -/
theorem mem_hexAlphabet_of_mem_encode {c : Cookie} {d : Char} (h : d ∈ c.encode.toList) :
    d ∈ hexAlphabet := by
  rw [encode, String.toList_ofList] at h
  exact mem_hexOfBytes h

/-- Every byte takes two digits. -/
theorem length_encode (c : Cookie) : c.encode.length = 2 * c.toJson.text.toUTF8.toList.length := by
  rw [encode, String.length_ofList, length_hexOfBytes]

/-- **The token of a cookie is read as the cookie**, with blanks around it or without. -/
theorem decode_between (c : Cookie) (before after : List Char)
    (hbefore : ∀ c ∈ before, isBlank c = true) (hafter : ∀ c ∈ after, isBlank c = true) :
    decode (String.ofList (before ++ (c.encode.toList ++ after))) = .ok c := by
  have htrim : trim (String.ofList (before ++ (c.encode.toList ++ after))) = c.encode := by
    rw [trim, String.toList_ofList, trimBoth_between hbefore _ hafter, String.ofList_toList]
    intro d hd
    exact isBlank_of_mem_hexAlphabet (mem_hexAlphabet_of_mem_encode hd)
  have hbytes : bytesOfHex c.encode.toUTF8.toList = .ok c.toJson.text.toUTF8.toList :=
    bytesOfHex_toUTF8 _
  have hcontent : ofBytes? c.toJson.text.toUTF8.toList = some c := by
    rw [ofBytes?, Json.ofBytes?_text c.gives_toJson.readable, Option.bind_some,
      c.gives_toJson.eq_some]
  rw [decode, htrim, hbytes]
  simp only [hcontent]

theorem decode_encode (c : Cookie) : decode c.encode = .ok c := by
  have hread := c.decode_between [] [] (fun _ h => nomatch h) (fun _ h => nomatch h)
  rwa [List.nil_append, List.append_nil, String.ofList_toList] at hread

/-- **A cookie survives its token.**  The token of every cookie is an even number of lower-case
digits, and with any blanks around it it is read as that cookie. -/
theorem token_survives (c : Cookie) :
    c.encode.length % 2 = 0 ∧ (∀ d ∈ c.encode.toList, d ∈ hexAlphabet) ∧
      ∀ before after : List Char, (∀ b ∈ before, isBlank b = true) →
        (∀ b ∈ after, isBlank b = true) →
          decode (String.ofList (before ++ (c.encode.toList ++ after))) = .ok c := by
  refine ⟨?_, fun d hd => mem_hexAlphabet_of_mem_encode hd, fun before after hbefore hafter => ?_⟩
  · rw [length_encode, Nat.mul_mod_right]
  · exact c.decode_between before after hbefore hafter

end Cookie

namespace Sample

/-- The token of a first page, pasted between blanks. -/
theorem pasted_token_survives :
    (∀ b ∈ [' ', '\t'], isBlank b = true) ∧ (∀ b ∈ ['\n'], isBlank b = true) ∧
      Cookie.decode (String.ofList ([' ', '\t'] ++
        ((⟨1, some ⟨7⟩, none⟩ : Cookie).encode.toList ++ ['\n']))) = .ok ⟨1, some ⟨7⟩, none⟩ := by
  have hbefore : ∀ b ∈ [' ', '\t'], isBlank b = true :=
    List.forall_mem_cons.mpr ⟨by decide, List.forall_mem_singleton.mpr (by decide)⟩
  have hafter : ∀ b ∈ ['\n'], isBlank b = true := List.forall_mem_singleton.mpr (by decide)
  obtain ⟨-, -, hread⟩ := Cookie.token_survives ⟨1, some ⟨7⟩, none⟩
  exact ⟨hbefore, hafter, hread _ _ hbefore hafter⟩

end Sample

end RecordQuery
