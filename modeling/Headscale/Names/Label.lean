import Headscale.Lib.Search
import Headscale.Lib.Text
import Mathlib.Data.List.DropRight

/-!
# Given names

The given name of a node is its DNS label. It is made from the name that the client reports: known
suffixes are cut off, bytes that cannot stand in a label are replaced or dropped, and where another
node has the name already, `-1`, `-2` and so on are tried until one is free. The sanitized name is a
valid label or empty; the suffix is not part of what is cut to 63 bytes, and so a name with a suffix
may be too long.
-/

namespace Headscale.Names

open Search List Text

/-! ## Labels -/

inductive LabelError where
  | empty
  | tooLong
  | badStart
  | badEnd
  | badByte (byte : UInt8)
deriving DecidableEq, Repr

/-- The message, with Go's quoting of a string and of a character. -/
def LabelError.text (quote : String → String) (quoteRune : Char → String) (label : String) :
    LabelError → String
  | .empty => "empty DNS label"
  | .tooLong => quote label ++ " is too long, max length is 63 bytes"
  | .badStart => quote label ++ " is not a valid DNS label: must start with a letter or number"
  | .badEnd => quote label ++ " is not a valid DNS label: must end with a letter or number"
  | .badByte byte =>
    quote label ++ " is not a valid DNS label: contains invalid character " ++
      quoteRune (Char.ofNat byte.toNat)

/-- `u8::is_ascii_alphanumeric`. -/
def isDnsLabelAlphanumeric (byte : UInt8) : Bool :=
  (48 ≤ byte ∧ byte ≤ 57) ∨ (65 ≤ byte ∧ byte ≤ 90) ∨ (97 ≤ byte ∧ byte ≤ 122)

def validLabel (label : String) : Except LabelError Unit :=
  match utf8 label.toList with
  | [] => .error .empty
  | first :: rest =>
    if 63 < (first :: rest).length then .error .tooLong
    else if !isDnsLabelAlphanumeric first then .error .badStart
    else if !isDnsLabelAlphanumeric ((first :: rest).getLast (cons_ne_nil _ _)) then .error .badEnd
    else
      match rest.dropLast.find? fun byte => !isDnsLabelAlphanumeric byte && byte ≠ 45 with
      | some byte => .error (.badByte byte)
      | none => .ok ()

/-- A label but for its length: letters, digits and hyphens, and no hyphen at either end. -/
structure LabelShape (bytes : List UInt8) : Prop where
  all : ∀ byte ∈ bytes, isDnsLabelAlphanumeric byte = true ∨ byte = 45
  first : ∃ byte, bytes.head? = some byte ∧ isDnsLabelAlphanumeric byte = true
  last : ∃ byte, bytes.getLast? = some byte ∧ isDnsLabelAlphanumeric byte = true

lemma mem_dropLast_or_last {α : Type} {x : α} {xs : List α} (hx : x ∈ xs) (hne : xs ≠ []) :
    x ∈ xs.dropLast ∨ x = xs.getLast hne := by
  rw [← dropLast_append_getLast hne, mem_append, mem_singleton] at hx
  exact hx

lemma validLabel_ok_iff {label : String} :
    validLabel label = .ok () ↔
      LabelShape (utf8 label.toList) ∧ (utf8 label.toList).length ≤ 63 := by
  unfold validLabel
  cases utf8 label.toList with
  | nil =>
    refine iff_of_false nofun ?_
    rintro ⟨⟨-, ⟨byte, hfirst, -⟩, -⟩, -⟩
    cases hfirst
  | cons first rest =>
    have hlast : (first :: rest).getLast? =
        some ((first :: rest).getLast (cons_ne_nil _ _)) :=
      getLast?_eq_some_getLast _
    constructor
    · intro h
      simp only at h
      split at h
      · cases h
      split at h
      · cases h
      split at h
      · cases h
      rename_i hlen hhead hend
      split at h
      · cases h
      rename_i hnone
      simp only [Bool.not_eq_eq_eq_not, Bool.not_true, Bool.not_eq_false] at hhead hend
      refine ⟨⟨fun byte hbyte => ?_, ⟨first, rfl, hhead⟩, ⟨_, hlast, hend⟩⟩, by omega⟩
      obtain rfl | hrest := mem_cons.mp hbyte
      · exact .inl hhead
      have hne := ne_nil_of_mem hrest
      obtain hinner | rfl := mem_dropLast_or_last hrest hne
      · have hbad := find?_eq_none.mp hnone byte hinner
        by_contra hneither
        push Not at hneither
        exact hbad (by simp [hneither])
      · rw [getLast_cons hne] at hend
        exact .inl hend
    · rintro ⟨⟨hall, ⟨byte, hhead, hfirst⟩, ⟨end', hend, hend'⟩⟩, hlen⟩
      cases hhead
      cases hlast.symm.trans hend
      have hnone : (rest.dropLast.find? fun byte => !isDnsLabelAlphanumeric byte && byte ≠ 45) =
          none := by
        refine find?_eq_none.mpr fun byte hbyte => ?_
        obtain halnum | hhyphen :=
          hall byte (mem_cons_of_mem _ (mem_of_mem_dropLast hbyte))
        · simp [halnum]
        · simp [hhyphen]
      simp only [if_neg (Nat.not_lt.mpr hlen), hfirst, hend', hnone]
      rfl

/-! ## Sanitizing -/

def trimCommonHostnameSuffixes (hostname : String) : String :=
  let hostname := (stripEndStr ".local" hostname).getD hostname
  let hostname := (stripEndStr ".localdomain" hostname).getD hostname
  (stripEndStr ".lan" hostname).getD hostname

/-- What the bytes between `start` and `end` are: at most 63 of them are looked at, and those at
either end that are neither letters nor digits are left out. -/
def keptBytes (bytes : List UInt8) : List UInt8 :=
  ((bytes.take 63).dropWhile fun byte => !isDnsLabelAlphanumeric byte).rdropWhile fun byte =>
    !isDnsLabelAlphanumeric byte

/-- What is written for a byte. -/
def sanitizeByte (boundary : Bool) (byte : UInt8) : Option Char :=
  if (byte = 32 ∨ byte = 46 ∨ byte = 64 ∨ byte = 95) ∧ boundary = false then some '-'
  else if (97 ≤ byte ∧ byte ≤ 122) ∨ (48 ≤ byte ∧ byte ≤ 57) ∨ byte = 45 then
    some (Char.ofNat byte.toNat)
  else if 65 ≤ byte ∧ byte ≤ 90 then some (Char.ofNat (byte.toNat + 32))
  else none

def sanitizeKept (kept : List UInt8) : List Char :=
  kept.zipIdx.filterMap fun entry =>
    sanitizeByte (entry.2 = 0 ∨ entry.2 = kept.length - 1) entry.1

def sanitizeHostnameForGivenName (hostname : String) : String :=
  .ofList (sanitizeKept (keptBytes (utf8 (trimCommonHostnameSuffixes hostname).toList)))

def autoGivenNameBase (hostname : String) : String :=
  let sanitized := sanitizeHostnameForGivenName hostname
  if sanitized = "" then "node" else sanitized

/-- The name was made from the host name, maybe with a number after it. -/
def isAutoDerivedGivenName (givenName hostname : String) : Bool :=
  let base := sanitizeHostnameForGivenName hostname
  if givenName = base then true
  else
    match stripStartStr (base ++ "-") givenName with
    | none => false
    | some suffix => (parseInt (-2 ^ 63) (2 ^ 63 - 1) suffix.toList).isSome

/-! ### What survives -/

/-- A character that the sanitizer writes. -/
def IsSafe (c : Char) : Prop :=
  (97 ≤ c.toNat ∧ c.toNat ≤ 122) ∨ (48 ≤ c.toNat ∧ c.toNat ≤ 57) ∨ c = '-'

instance (c : Char) : Decidable (IsSafe c) :=
  inferInstanceAs (Decidable ((97 ≤ c.toNat ∧ c.toNat ≤ 122) ∨ (48 ≤ c.toNat ∧ c.toNat ≤ 57) ∨ c = '-'))

variable {name : String} {base : String} {c : Char}

lemma IsSafe.lt (h : IsSafe c) : c.toNat < 128 := by
  obtain h | h | rfl := h
  · omega
  · omega
  · decide

lemma toNat_ofNat_byte {n : Nat} (h : n < 256) : (Char.ofNat n).toNat = n := by
  have hvalid : n.isValidChar := .inl (by omega)
  rw [Char.ofNat, dif_pos hvalid]
  rfl

lemma sanitizeByte_safe {boundary : Bool} {byte : UInt8}
    (h : sanitizeByte boundary byte = some c) : IsSafe c := by
  unfold sanitizeByte at h
  have hlt := byte.toNat_lt
  split at h
  · cases h
    exact .inr (.inr rfl)
  split at h
  · rename_i hkeep
    cases h
    rw [IsSafe, toNat_ofNat_byte hlt]
    obtain hletter | hdigit | rfl := hkeep
    · exact .inl hletter
    · exact .inr (.inl hdigit)
    · exact .inr (.inr rfl)
  · split at h <;> cases h
    rename_i hupper
    have hupper : 65 ≤ byte.toNat ∧ byte.toNat ≤ 90 := hupper
    rw [IsSafe, toNat_ofNat_byte (by omega)]
    exact .inl (by omega)

/-- A safe character is written for its own byte, wherever it stands. -/
theorem sanitizeByte_asciiByte (h : IsSafe c) (boundary : Bool) :
    sanitizeByte boundary (asciiByte c) = some c := by
  have hn : (asciiByte c).toNat = c.toNat := by
    have := h.lt
    simp only [asciiByte, UInt8.toNat_ofNat']
    omega
  have hkeep : (97 ≤ c.toNat ∧ c.toNat ≤ 122) ∨ (48 ≤ c.toNat ∧ c.toNat ≤ 57) ∨ c.toNat = 45 :=
    h.imp_right (Or.imp_right fun h => by rw [h]; rfl)
  unfold sanitizeByte
  simp only [UInt8.le_iff_toNat_le, ← UInt8.toNat_inj, hn]
  rw [if_neg, if_pos, Char.ofNat_toNat]
  · exact hkeep
  · rintro ⟨hmark, -⟩
    have hmark : c.toNat = 32 ∨ c.toNat = 46 ∨ c.toNat = 64 ∨ c.toNat = 95 := hmark
    omega

lemma IsSafe.byte (h : IsSafe c) :
    isDnsLabelAlphanumeric (asciiByte c) = true ∨ asciiByte c = 45 := by
  have hn : (asciiByte c).toNat = c.toNat := by
    have := h.lt
    simp only [asciiByte, UInt8.toNat_ofNat']
    omega
  obtain hletter | hdigit | rfl := h
  · refine .inl ?_
    simp only [isDnsLabelAlphanumeric, UInt8.le_iff_toNat_le, hn, decide_eq_true_eq]
    exact .inr (.inr hletter)
  · refine .inl ?_
    simp only [isDnsLabelAlphanumeric, UInt8.le_iff_toNat_le, hn, decide_eq_true_eq]
    exact .inl hdigit
  · exact .inr rfl

lemma sanitizeByte_alphanumeric {byte : UInt8} (boundary : Bool)
    (h : isDnsLabelAlphanumeric byte = true) :
    ∃ c, sanitizeByte boundary byte = some c ∧ isDnsLabelAlphanumeric (asciiByte c) = true := by
  have hany := forall_byte (P := fun byte => ∀ boundary, isDnsLabelAlphanumeric byte = true →
      ((sanitizeByte boundary byte).any fun c => isDnsLabelAlphanumeric (asciiByte c)) = true)
    (by decide +kernel) byte boundary h
  cases hsome : sanitizeByte boundary byte with
  | none => simp [hsome] at hany
  | some c => exact ⟨c, rfl, by simpa [hsome] using hany⟩

lemma sanitizeKept_safe {kept : List UInt8} (h : c ∈ sanitizeKept kept) : IsSafe c := by
  obtain ⟨entry, -, hentry⟩ := mem_filterMap.mp h
  exact sanitizeByte_safe hentry

/-- The ends of what is written are those of what was kept. -/
theorem sanitizeKept_shape {kept : List UInt8} {first last : UInt8} (hfirst : kept.head? = some first)
    (halnum : isDnsLabelAlphanumeric first = true) (hlast : kept.getLast? = some last)
    (halnum' : isDnsLabelAlphanumeric last = true) :
    LabelShape ((sanitizeKept kept).map asciiByte) := by
  refine ⟨fun byte hbyte => ?_, ?_, ?_⟩
  · obtain ⟨c, hc, rfl⟩ := mem_map.mp hbyte
    exact (sanitizeKept_safe hc).byte
  · obtain ⟨rest, rfl⟩ := head?_eq_some_iff.mp hfirst
    obtain ⟨c, hc, halnum⟩ := sanitizeByte_alphanumeric true halnum
    exact ⟨asciiByte c, by simp [sanitizeKept, hc], halnum⟩
  · obtain ⟨rest, rfl⟩ := getLast?_eq_some_iff.mp hlast
    obtain ⟨c, hc, halnum⟩ := sanitizeByte_alphanumeric true halnum'
    refine ⟨asciiByte c, ?_, halnum⟩
    simp [sanitizeKept, zipIdx_append, hc]

/-- What is kept is nothing, or begins and ends with a letter or a digit. -/
theorem keptBytes_ends (bytes : List UInt8) :
    keptBytes bytes = [] ∨ ∃ first last, (keptBytes bytes).head? = some first ∧
      isDnsLabelAlphanumeric first = true ∧ (keptBytes bytes).getLast? = some last ∧
      isDnsLabelAlphanumeric last = true := by
  by_cases hnil : keptBytes bytes = []
  · exact .inl hnil
  refine .inr ⟨(keptBytes bytes).head hnil, (keptBytes bytes).getLast hnil,
    head?_eq_some_head hnil, ?_, getLast?_eq_some_getLast hnil, ?_⟩
  · -- the first byte is that of the list before its end was cut
    have hcut := rdropWhile_prefix (fun byte => !isDnsLabelAlphanumeric byte)
      ((bytes.take 63).dropWhile fun byte => !isDnsLabelAlphanumeric byte)
    have hstart := head_dropWhile_not (fun byte => !isDnsLabelAlphanumeric byte)
      (hcut.ne_nil hnil)
    rw [← hcut.head hnil] at hstart
    simpa [keptBytes] using hstart
  · simpa [keptBytes] using rdropWhile_last_not _ _ hnil

lemma length_keptBytes_le (bytes : List UInt8) : (keptBytes bytes).length ≤ 63 :=
  calc (keptBytes bytes).length
      ≤ ((bytes.take 63).dropWhile fun byte => !isDnsLabelAlphanumeric byte).length :=
        (List.rdropWhile_prefix _ _).length_le
    _ ≤ (bytes.take 63).length := (dropWhile_sublist _).length_le
    _ ≤ 63 := length_take_le _ _

lemma sanitize_safe {hostname : String} (h : c ∈ (sanitizeHostnameForGivenName hostname).toList) :
    IsSafe c := by
  rw [sanitizeHostnameForGivenName, String.toList_ofList] at h
  exact sanitizeKept_safe h

lemma utf8_safe (h : ∀ c ∈ name.toList, IsSafe c) :
    utf8 name.toList = name.toList.map asciiByte :=
  utf8_ascii fun c hc => (h c hc).lt

/-- Nothing survives, or a valid label of safe characters does. -/
theorem sanitize_shape (hostname : String) :
    sanitizeHostnameForGivenName hostname = "" ∨
      LabelShape (utf8 (sanitizeHostnameForGivenName hostname).toList) ∧
        (utf8 (sanitizeHostnameForGivenName hostname).toList).length ≤ 63 := by
  rw [utf8_safe fun c => sanitize_safe]
  simp only [sanitizeHostnameForGivenName, String.toList_ofList]
  generalize utf8 (trimCommonHostnameSuffixes hostname).toList = bytes
  obtain hnil | ⟨first, last, hfirst, halnum, hlast, halnum'⟩ := keptBytes_ends bytes
  · rw [hnil]
    exact .inl rfl
  refine .inr ⟨sanitizeKept_shape hfirst halnum hlast halnum', ?_⟩
  rw [length_map]
  calc (sanitizeKept (keptBytes bytes)).length
      ≤ (keptBytes bytes).zipIdx.length := length_filterMap_le _ _
    _ ≤ 63 := by
      rw [length_zipIdx]
      exact length_keptBytes_le bytes

/-! ### Sanitized names -/

lemma stripEndStr_eq_none {ending name : String} (hc : c ∈ ending.toList)
    (hname : c ∉ name.toList) : stripEndStr ending name = none := by
  unfold stripEndStr
  cases hstrip : stripStart ending.toList.reverse name.toList.reverse with
  | none => rfl
  | some rest =>
    have hmem : c ∈ name.toList.reverse := by
      rw [stripStart_eq hstrip]
      exact mem_append_left _ (mem_reverse.mpr hc)
    exact absurd (mem_reverse.mp hmem) hname

lemma trim_of_safe (h : ∀ c ∈ name.toList, IsSafe c) :
    trimCommonHostnameSuffixes name = name := by
  have hdot : '.' ∉ name.toList := fun hmem => absurd (h _ hmem) (by decide)
  have hkeep : ∀ ending : String, '.' ∈ ending.toList →
      (stripEndStr ending name).getD name = name := by
    intro ending hending
    rw [stripEndStr_eq_none hending hdot, Option.getD_none]
  simp only [trimCommonHostnameSuffixes, hkeep ".local" (by decide), hkeep ".localdomain" (by decide),
    hkeep ".lan" (by decide)]

lemma keptBytes_of_shape {bytes : List UInt8} (h : LabelShape bytes) (hlen : bytes.length ≤ 63) :
    keptBytes bytes = bytes := by
  obtain ⟨first, hfirst, halnum⟩ := h.first
  obtain ⟨last, hlast, halnum'⟩ := h.last
  have hstart : bytes.dropWhile (fun byte => !isDnsLabelAlphanumeric byte) = bytes := by
    obtain ⟨rest, rfl⟩ := head?_eq_some_iff.mp hfirst
    exact dropWhile_cons_of_neg (by simp [halnum])
  rw [keptBytes, take_of_length_le hlen, hstart, rdropWhile_eq_self_iff]
  intro hne
  rw [getLast?_eq_some_getLast hne, Option.some.injEq] at hlast
  simp [hlast, halnum']

lemma sanitizeKept_of_safe {cs : List Char} (h : ∀ c ∈ cs, IsSafe c) :
    sanitizeKept (cs.map asciiByte) = cs := by
  -- whether an entry is at an end does not matter
  have hentries : ∀ (test : Nat → Bool) (k : Nat), ((cs.map asciiByte).zipIdx k).filterMap
      (fun entry => sanitizeByte (test entry.2) entry.1) = cs := by
    intro test
    induction cs with
    | nil => exact fun _ => rfl
    | cons c cs ih =>
      intro k
      obtain ⟨hc, hcs⟩ := forall_mem_cons.mp h
      simp only [map_cons, zipIdx_cons, filterMap_cons, sanitizeByte_asciiByte hc (test k), ih hcs]
  exact hentries (fun i => i = 0 ∨ i = (cs.map asciiByte).length - 1) 0

/-- A sanitized name stays as it is. -/
theorem sanitize_of_label (hsafe : ∀ c ∈ name.toList, IsSafe c)
    (hshape : LabelShape (utf8 name.toList)) (hlen : (utf8 name.toList).length ≤ 63) :
    sanitizeHostnameForGivenName name = name := by
  rw [sanitizeHostnameForGivenName, trim_of_safe hsafe, keptBytes_of_shape hshape hlen,
    utf8_safe hsafe, sanitizeKept_of_safe hsafe, String.ofList_toList]

lemma autoGivenNameBase_shape (hostname : String) :
    LabelShape (utf8 (autoGivenNameBase hostname).toList) ∧
      (utf8 (autoGivenNameBase hostname).toList).length ≤ 63 := by
  by_cases hempty : sanitizeHostnameForGivenName hostname = ""
  · rw [autoGivenNameBase, if_pos hempty]
    exact validLabel_ok_iff.mp (by decide)
  · rw [autoGivenNameBase, if_neg hempty]
    exact (sanitize_shape hostname).resolve_left hempty

/-! ## Names that are free -/

/-- The names tried for a base, in their order. -/
def numbered (base : String) : Nat → String
  | 0 => base
  | suffix + 1 => base ++ "-" ++ .ofList (decimal (suffix + 1))

/-- The loop over the suffixes. It tries more names than are taken, and so it ends; the counter of
the source, which has 32 bits, is not followed past that. -/
def resolveGivenName (base : String) (taken : List String) : String :=
  numbered base
    ((firstFrom (fun suffix => numbered base suffix ∉ taken) (taken.length + 1) 0).getD 0)

lemma numbered_injective (base : String) : Function.Injective (numbered base) := by
  intro m n h
  have hlist : (numbered base m).toList = (numbered base n).toList := congrArg String.toList h
  cases m with
  | zero =>
    cases n with
    | zero => rfl
    | succ n => simp [numbered] at hlist
  | succ m =>
    cases n with
    | zero => simp [numbered] at hlist
    | succ n =>
      simp only [numbered, String.toList_append, String.toList_ofList, append_cancel_left_eq]
        at hlist
      exact decimal_injective hlist

/-- The loop ends with a name that is free. -/
theorem resolveGivenName_spec (base : String) (taken : List String) :
    resolveGivenName base taken ∉ taken ∧ ∃ suffix, resolveGivenName base taken = numbered base suffix := by
  refine ⟨?_, _, rfl⟩
  obtain ⟨suffix, hsuffix⟩ := exists_firstFrom (k := 0) (numbered_injective base) taken.toFinset
    (Nat.lt_succ_of_le (toFinset_card_le taken))
  simp only [mem_toFinset] at hsuffix
  rw [resolveGivenName, hsuffix, Option.getD_some]
  simpa using (firstFrom_some hsuffix).2.2

lemma resolveGivenName_of_free {taken : List String} (h : base ∉ taken) :
    resolveGivenName base taken = base := by
  have hfirst : firstFrom (fun suffix => numbered base suffix ∉ taken) (taken.length + 1) 0 = some 0 :=
    if_pos (decide_eq_true h)
  rw [resolveGivenName, hfirst]
  rfl

lemma isDnsLabelAlphanumeric_decimal {n : Nat} (h : c ∈ decimal n) :
    c.toNat < 128 ∧ isDnsLabelAlphanumeric (asciiByte c) = true := by
  obtain ⟨d, hd, rfl⟩ := mem_toDigits (by decide) h
  have hall : ∀ d : Fin 10, (d : Nat).digitChar.toNat < 128 ∧
      isDnsLabelAlphanumeric (asciiByte (d : Nat).digitChar) = true := by decide
  exact hall ⟨d, hd⟩

/-- A number after a label makes it longer and nothing worse. -/
theorem numbered_shape (h : LabelShape (utf8 base.toList)) (suffix : Nat) :
    LabelShape (utf8 (numbered base suffix).toList) := by
  cases suffix with
  | zero => exact h
  | succ suffix =>
    have hdigits : utf8 (decimal (suffix + 1)) =
        (decimal (suffix + 1)).map asciiByte :=
      utf8_ascii fun c hc => (isDnsLabelAlphanumeric_decimal hc).1
    have hbytes : utf8 (numbered base (suffix + 1)).toList =
        utf8 base.toList ++ 45 :: (decimal (suffix + 1)).map asciiByte := by
      simp only [numbered, String.toList_append, String.toList_ofList, utf8_append, hdigits,
        append_assoc]
      rfl
    rw [hbytes]
    refine ⟨fun byte hbyte => ?_, ?_, ?_⟩
    · obtain hbase | hbyte := mem_append.mp hbyte
      · exact h.all byte hbase
      · obtain rfl | hdigit := mem_cons.mp hbyte
        · exact .inr rfl
        · obtain ⟨c, hc, rfl⟩ := mem_map.mp hdigit
          exact .inl (isDnsLabelAlphanumeric_decimal hc).2
    · obtain ⟨first, hfirst, halnum⟩ := h.first
      exact ⟨first, by simp [hfirst], halnum⟩
    · have hne := decimal_ne_nil (suffix + 1)
      refine ⟨asciiByte ((decimal (suffix + 1)).getLast hne), ?_,
        (isDnsLabelAlphanumeric_decimal (getLast_mem hne)).2⟩
      rw [getLast?_append_cons, getLast?_cons, getLast?_map,
        getLast?_eq_some_getLast hne]
      rfl

/-- A generated name is a valid label exactly if it is not too long. -/
theorem validLabel_numbered_iff (h : LabelShape (utf8 base.toList)) (suffix : Nat) :
    validLabel (numbered base suffix) = .ok () ↔
      (utf8 (numbered base suffix).toList).length ≤ 63 := by
  rw [validLabel_ok_iff]
  exact and_iff_right (numbered_shape h suffix)

end Headscale.Names
