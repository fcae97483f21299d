import Headscale.Netip.Parse

/-!
# Printed addresses and prefixes are read back

`parse_addr` and `parse_prefix` of the text that `Display` gives for an address or a prefix return
that address or prefix. The policy compiler prints its prefixes into filter rules and reads them
again when it matches and reduces them, so every meaning of a compiled rule passes through these
theorems.
-/

namespace Headscale.GoNetip

open Headscale.IpAddr List Text

/-! ## IPv4 -/

/-- The decimal digits of one octet are read as that octet. -/
theorem ipv4Loop_decimal (input : List Char) (prev : Option Char) (fields : List Nat) {a : Nat}
    (ha : a ≤ 255) (tail : List Char) :
    ipv4Loop input prev fields 0 0 (decimal a ++ tail) =
      ipv4Loop input (some (a % 10).digitChar) fields a (Nat.toDigits 10 a).length tail := by
  refine read_toDigits (by decide) 255 (ipv4Loop input prev fields 0 0)
    (fun n rest =>
      ipv4Loop input (some (n % 10).digitChar) fields n (Nat.toDigits 10 n).length rest)
    ?_ ?_ a ha tail
  · intro d rest hd hle
    simp only [ipv4Loop, decDigit_digitChar hd, Nat.toDigits_of_lt_base hd, Nat.mod_eq_of_lt hd]
    rw [if_neg (by simp), if_neg (by omega)]
    simp
  · intro n d rest hn hd hle
    have hmod : (n * 10 + d) % 10 = d := by omega
    have hdiv : (n * 10 + d) / 10 = n := by omega
    have hlen : (Nat.toDigits 10 (n * 10 + d)).length = (Nat.toDigits 10 n).length + 1 := by
      rw [Nat.toDigits_of_base_le (by decide) (by omega), hdiv]
      simp
    simp only [ipv4Loop, decDigit_digitChar hd]
    rw [if_neg (by omega), if_neg (by omega), hmod, hlen]

variable {value : Nat} {c : Char} (ip : IpAddr) {zone : String} {fields : List Nat} {n : Nat}
  {tail : List Char}

/-- A dot between digits closes a field. -/
theorem ipv4Loop_dot (input : List Char) (hc : c ≠ '.') (hlen : fields.length < 3)
    (value digits : Nat) (htail : tail ≠ []) :
    ipv4Loop input (some c) fields value digits ('.' :: tail) =
      ipv4Loop input (some '.') (fields ++ [value]) 0 0 tail := by
  have hdot : decDigit '.' = none := by decide
  have hne : fields.length ≠ 3 := by omega
  simp [ipv4Loop, hdot, hc, htail, hne]

lemma digitChar_ne_dot (n : Nat) : (n % 10).digitChar ≠ '.' := by
  have all : ∀ k : Fin 10, (k : Nat).digitChar ≠ '.' := by decide
  exact all ⟨n % 10, Nat.mod_lt _ (by decide)⟩

lemma ipv4Fields_v4Chars (input : List Char) (value : Nat) :
    ipv4Fields input (v4Chars value) = .ok (v4Octets value) := by
  have hle : ∀ n, n % 256 ≤ 255 := fun n => by omega
  -- Each field ends at a dot that follows a digit and is followed by another field.
  have field : ∀ (prev : Option Char) (fields : List Nat) (n : Nat) (tail : List Char),
      fields.length < 3 → tail ≠ [] →
      ipv4Loop input prev fields 0 0 (decimal (n % 256) ++ '.' :: tail) =
        ipv4Loop input (some '.') (fields ++ [n % 256]) 0 0 tail := by
    intro prev fields n tail hlen htail
    rw [ipv4Loop_decimal input prev fields (hle n),
      ipv4Loop_dot input (digitChar_ne_dot _) hlen _ _ htail]
  have hlast := ipv4Loop_decimal input (some '.')
    [value / 2 ^ 24 % 256, value / 2 ^ 16 % 256, value / 2 ^ 8 % 256] (hle value) []
  rw [append_nil] at hlast
  simp only [ipv4Fields, v4Chars, append_assoc, cons_append]
  rw [field _ _ _ _ (by simp) (by simp),
    field _ _ _ _ (by simp) (by simp),
    field _ _ _ _ (by simp) (decimal_ne_nil _)]
  simp only [nil_append, cons_append]
  rw [hlast]
  rfl

lemma packNat_append (base : Nat) (high low : List Nat) :
    packNat base (high ++ low) = packNat base high * base ^ low.length + packNat base low := by
  have step : ∀ acc, List.foldl (fun acc part => acc * base + part) acc low =
      acc * base ^ low.length + packNat base low := by
    induction low with
    | nil => simp [packNat]
    | cons d rest ih =>
      intro acc
      have hhead : packNat base (d :: rest) = d * base ^ rest.length + packNat base rest := by
        rw [packNat, foldl_cons, ih]
        simp
      rw [foldl_cons, ih, hhead, length_cons, Nat.pow_succ]
      ring
  rw [packNat, foldl_append, step]
  rfl

lemma packNat_v4Octets (h : value < 2 ^ 32) : packNat 256 (v4Octets value) = value := by
  simp only [packNat, v4Octets, List.foldl]
  omega

/-! ## IPv6 -/

/-- The hexadecimal digits of one segment are read as that segment, up to a character that is no
digit. -/
theorem hexField_hex (input text : List Char) {g : Nat} (hg : g ≤ 65535)
    (htail : ∀ c ∈ tail.head?, hexDigit c = none) :
    hexField input text 0 0 (hex g ++ tail) =
      .ok (g, (Nat.toDigits 16 g).length, tail) := by
  have hread := read_toDigits (b := 16) (by decide) 65535 (hexField input text 0 0)
    (fun n rest => hexField input text n (Nat.toDigits 16 n).length rest) ?_ ?_ g hg tail
  · rw [hex, hread]
    cases tail with
    | nil => rfl
    | cons c rest => simp [hexField, htail c rfl]
  · intro d rest hd hle
    simp only [hexField, hexDigit_digitChar hd, Nat.toDigits_of_lt_base hd]
    rw [if_neg (by omega), if_neg (by omega)]
    simp
  · intro n d rest hn hd hle
    have hdiv : (n * 16 + d) / 16 = n := by omega
    have hlen : (Nat.toDigits 16 (n * 16 + d)).length = (Nat.toDigits 16 n).length + 1 := by
      rw [Nat.toDigits_of_base_le (by decide) (by omega), hdiv]
      simp
    -- A value with a digit still to come has at most three digits.
    have hshort : (Nat.toDigits 16 n).length ≤ 3 :=
      (Nat.length_toDigits_le_iff (by decide) (by decide)).mpr (by omega)
    simp only [hexField, hexDigit_digitChar hd]
    rw [if_neg (by omega), if_neg (by omega), hlen]

/-- The octets of a list of segments. -/
def segmentOctets (segments : List Nat) : List Nat :=
  segments.flatMap fun g => [g / 256, g % 256]

variable (segments : List Nat)

@[simp] lemma length_segmentOctets : (segmentOctets segments).length = 2 * segments.length := by
  simp [segmentOctets, Nat.mul_comm]

section FieldLoop

variable (input : List Char) (turns : Nat) {g : Nat} {octets : List Nat} (ellipsis : Option Nat)

/-- The digits a turn of the field loop starts with are one whole segment, when the text ends after
them or goes on with a colon. -/
theorem hexField_turn (hg : g ≤ 65535) (tail : List Char)
    (htail : ∀ c ∈ tail.head?, c = ':') :
    ∃ count, count ≠ 0 ∧
      hexField input (hex g ++ tail) 0 0 (hex g ++ tail) = .ok (g, count, tail) := by
  refine ⟨_, ?_, hexField_hex input _ hg ?_⟩
  · simp
  · intro c hc
    obtain rfl := htail c hc
    decide

lemma ipv6Loop_last (hg : g ≤ 65535) (hlen : octets.length < 16) :
    ipv6Loop input (turns + 1) (hex g) octets ellipsis =
      .ok ([], octets ++ [g / 256, g % 256], ellipsis) := by
  obtain ⟨count, hcount, hfield⟩ := hexField_turn input hg [] (by simp)
  rw [append_nil] at hfield
  rw [ipv6Loop, if_pos hlen, hfield]
  simp [hcount]

lemma ipv6Loop_colon (hg : g ≤ 65535) (hlen : octets.length < 16) {c : Char} (hc : c ≠ ':')
    (more : List Char) :
    ipv6Loop input (turns + 1) (hex g ++ ':' :: c :: more) octets ellipsis =
      ipv6Loop input turns (c :: more) (octets ++ [g / 256, g % 256]) ellipsis := by
  obtain ⟨count, hcount, hfield⟩ := hexField_turn input hg (':' :: c :: more) (by simp)
  rw [ipv6Loop, if_pos hlen, hfield]
  simp [hcount, hc]

lemma ipv6Loop_colons (hg : g ≤ 65535) (hlen : octets.length < 16) (more : List Char) :
    ipv6Loop input (turns + 1) (hex g ++ ':' :: ':' :: more) octets none =
      if more = [] then .ok ([], octets ++ [g / 256, g % 256], some (octets.length + 2))
      else ipv6Loop input turns more (octets ++ [g / 256, g % 256]) (some (octets.length + 2)) := by
  obtain ⟨count, hcount, hfield⟩ := hexField_turn input hg (':' :: ':' :: more) (by simp)
  rw [ipv6Loop, if_pos hlen, hfield]
  simp [hcount]

end FieldLoop

/-- Printed segments start with a character other than a colon. -/
theorem segmentChars_head (h : segments ≠ []) :
    ∃ c rest, segmentChars segments = c :: rest ∧ c ≠ ':' := by
  have hex_head : ∀ g tail, ∃ c rest, hex g ++ tail = c :: rest ∧ c ≠ ':' := by
    intro g tail
    obtain ⟨c, rest, hhex⟩ := exists_cons_of_ne_nil (hex_ne_nil g)
    refine ⟨c, rest ++ tail, by simp [hhex], ?_⟩
    rintro rfl
    exact not_mem_hex (c := ':') (by decide) g (by simp [hhex])
  match segments, h with
  | [g], _ => simpa [segmentChars] using hex_head g []
  | g :: g' :: rest, _ => exact hex_head g _

/-- The field loop reads printed segments up to the end of the text. -/
theorem ipv6Loop_segments (input : List Char) (ellipsis : Option Nat) {segments : List Nat}
    (hne : segments ≠ []) (hle : ∀ g ∈ segments, g ≤ 65535) (turns : Nat)
    (hturns : segments.length ≤ turns) (octets : List Nat)
    (hlen : octets.length + 2 * segments.length ≤ 16) :
    ipv6Loop input turns (segmentChars segments) octets ellipsis =
      .ok ([], octets ++ segmentOctets segments, ellipsis) := by
  induction segments generalizing turns octets with
  | nil => exact absurd rfl hne
  | cons g rest ih =>
    obtain ⟨turns, rfl⟩ : ∃ n, turns = n + 1 := ⟨turns - 1, by simp at hturns; omega⟩
    simp only [length_cons] at hlen hturns
    have hg := hle g (by simp)
    cases rest with
    | nil => exact ipv6Loop_last input turns ellipsis hg (by omega)
    | cons g' rest =>
      obtain ⟨c, more, hmore, hc⟩ := segmentChars_head (g' :: rest) (by simp)
      have hrest := ih (by simp) (fun x hx => hle x (by simp [hx])) turns (by omega)
        (octets ++ [g / 256, g % 256]) (by
          simp only [length_append, length_cons, length_nil] at hlen ⊢
          omega)
      rw [segmentChars, hmore, ipv6Loop_colon input turns ellipsis hg (by omega) hc, ← hmore,
        hrest]
      · simp [segmentOctets]
      · simp

/-- The field loop reads printed segments up to a `::`, and goes on behind it. -/
theorem ipv6Loop_segments_colons (input : List Char) {segments : List Nat} (hne : segments ≠ [])
    (hle : ∀ g ∈ segments, g ≤ 65535) (more : List Char) (turns : Nat) (octets : List Nat)
    (hlen : octets.length + 2 * segments.length ≤ 16) :
    ipv6Loop input (turns + segments.length) (segmentChars segments ++ ':' :: ':' :: more)
        octets none =
      if more = [] then
        .ok ([], octets ++ segmentOctets segments, some (octets.length + 2 * segments.length))
      else
        ipv6Loop input turns more (octets ++ segmentOctets segments)
          (some (octets.length + 2 * segments.length)) := by
  induction segments generalizing octets with
  | nil => exact absurd rfl hne
  | cons g rest ih =>
    simp only [length_cons] at hlen
    have hg := hle g (by simp)
    cases rest with
    | nil => exact ipv6Loop_colons input turns hg (by omega) more
    | cons g' rest =>
      obtain ⟨c, tail, htail, hc⟩ := segmentChars_head (g' :: rest) (by simp)
      have hrest := ih (by simp) (fun x hx => hle x (by simp [hx]))
        (octets ++ [g / 256, g % 256]) (by
          simp only [length_append, length_cons, length_nil] at hlen ⊢
          omega)
      have hcount : octets.length + 2 * (g :: g' :: rest).length =
          (octets ++ [g / 256, g % 256]).length + 2 * (g' :: rest).length := by
        simp
        omega
      have hoctets : octets ++ segmentOctets (g :: g' :: rest) =
          (octets ++ [g / 256, g % 256]) ++ segmentOctets (g' :: rest) := by
        simp [segmentOctets]
      rw [hcount, hoctets, ← hrest, htail, segmentChars, htail, append_assoc,
        cons_append, cons_append]
      · exact ipv6Loop_colon input (turns + (g' :: rest).length) none hg (by omega) hc _
      · simp

/-! ## The run of zeros -/

/-- The segments of the run are all zero. -/
def ZeroRunIn (segments : List Nat) (run : ZeroRun) : Prop :=
  ∀ i, run.start ≤ i → i < run.start + run.len → segments[i]? = some 0

/-- The scan keeps its longest and its current run inside the segments it has read. -/
theorem zeroRunStep_fold (segments rest : List Nat) (index : Nat)
    (hrest : segments.drop index = rest) (longest current : ZeroRun)
    (hlongest : ZeroRunIn segments longest) (hcurrent : ZeroRunIn segments current)
    (hend : current.len = 0 ∨ current.start + current.len = index) :
    ZeroRunIn segments ((rest.zipIdx index).foldl zeroRunStep (longest, current)).1 := by
  induction rest generalizing index longest current with
  | nil => exact hlongest
  | cons g rest ih =>
    have hget : segments[index]? = some g := by
      rw [← head?_drop, hrest]
      rfl
    have hnext : segments.drop (index + 1) = rest := by
      rw [← drop_drop, hrest]
      rfl
    rw [zipIdx_cons, foldl_cons]
    by_cases hg : g = 0
    · -- A zero segment extends the current run, or starts one here.
      obtain ⟨grown, hgrown, hin, hstop⟩ : ∃ grown : ZeroRun,
          zeroRunStep (longest, current) (g, index) =
            (if grown.len > longest.len then grown else longest, grown) ∧
          ZeroRunIn segments grown ∧ grown.start + grown.len = index + 1 := by
        by_cases hz : current.len = 0
        · refine ⟨⟨index, 1⟩, by simp [zeroRunStep, hg, hz], ?_, rfl⟩
          intro i hlo hhi
          obtain rfl : i = index := by simp at hlo hhi; omega
          rw [hget, hg]
        · refine ⟨⟨current.start, current.len + 1⟩, by simp [zeroRunStep, hg, hz], ?_, ?_⟩
          · intro i hlo hhi
            simp only at hlo hhi
            by_cases hi : i = index
            · rw [hi, hget, hg]
            · exact hcurrent i hlo (by omega)
          · simp only
            omega
      rw [hgrown]
      refine ih (index + 1) hnext _ _ ?_ hin (.inr hstop)
      split
      · exact hin
      · exact hlongest
    · have hstep : zeroRunStep (longest, current) (g, index) = (longest, ⟨0, 0⟩) := by
        simp [zeroRunStep, hg]
      rw [hstep]
      exact ih (index + 1) hnext _ _ hlongest (by intro i _ hi; simp at hi) (.inl rfl)

lemma longestZeroRun_in : ZeroRunIn segments (longestZeroRun segments) := by
  refine zeroRunStep_fold segments segments 0 rfl _ _ ?_ ?_ (.inl rfl) <;>
    (intro i _ hi; simp at hi)

/-- Cutting the run out of the segments and putting zeros in its place changes nothing. -/
theorem take_zeros_drop {segments : List Nat} {run : ZeroRun} (h : ZeroRunIn segments run)
    (hpos : 0 < run.len) :
    run.start + run.len ≤ segments.length ∧
      segments.take run.start ++ List.replicate run.len 0 ++
        segments.drop (run.start + run.len) = segments := by
  have hbound : run.start + run.len ≤ segments.length := by
    have hlast := h (run.start + run.len - 1) (by omega) (by omega)
    have := (List.getElem?_eq_some_iff.mp hlast).1
    omega
  have hzeros : (segments.drop run.start).take run.len = List.replicate run.len 0 := by
    apply ext_getElem?
    intro i
    by_cases hi : i < run.len
    · rw [getElem?_take_of_lt hi, getElem?_drop, h _ (by omega) (by omega)]
      simp [hi]
    · simp [hi]
  refine ⟨hbound, ?_⟩
  rw [← hzeros, append_assoc, ← drop_drop, take_append_drop,
    take_append_drop]

/-! ## IPv6 addresses -/

lemma packNat_segmentOctets : packNat 256 (segmentOctets segments) = packNat 65536 segments := by
  have step : ∀ acc, List.foldl (fun acc part => acc * 256 + part) acc (segmentOctets segments) =
      List.foldl (fun acc part => acc * 65536 + part) acc segments := by
    induction segments with
    | nil => simp [segmentOctets]
    | cons g rest ih =>
      intro acc
      have hg : (acc * 256 + g / 256) * 256 + g % 256 = acc * 65536 + g := by omega
      have hcons : segmentOctets (g :: rest) = g / 256 :: g % 256 :: segmentOctets rest := by
        simp [segmentOctets]
      rw [hcons, foldl_cons, foldl_cons, foldl_cons, ih, hg]
  exact step 0

lemma packNat_v6Segments (h : value < 2 ^ 128) : packNat 65536 (v6Segments value) = value := by
  simp only [packNat, v6Segments, List.foldl]
  omega

lemma v6Segments_le (value : Nat) : ∀ g ∈ v6Segments value, g ≤ 65535 := by
  intro g hg
  simp only [v6Segments, mem_cons, not_mem_nil, or_false] at hg
  omega

lemma segmentOctets_zeros (n : Nat) :
    segmentOctets (List.replicate n 0) = List.replicate (2 * n) 0 := by
  induction n with
  | zero => rfl
  | succ n ih =>
    rw [replicate_succ, show 2 * (n + 1) = 2 * n + 1 + 1 by omega, replicate_succ,
      replicate_succ, ← ih]
    rfl

/-- The zeros of `::` go back to where the run was cut out. -/
theorem expandEllipsis_run (input : List Char) (before after : List Nat) (hn : 0 < n)
    (hlen : before.length + n + after.length = 8) :
    expandEllipsis input
        ([], segmentOctets before ++ segmentOctets after, some (2 * before.length)) =
      .ok (segmentOctets (before ++ List.replicate n 0 ++ after)) := by
  have hshort : (segmentOctets before ++ segmentOctets after).length < 16 := by
    simp
    omega
  have hgap : 16 - (segmentOctets before ++ segmentOctets after).length = 2 * n := by
    simp
    omega
  have htake : (segmentOctets before ++ segmentOctets after).take (2 * before.length) =
      segmentOctets before := take_left' (by simp)
  have hdrop : (segmentOctets before ++ segmentOctets after).drop (2 * before.length) =
      segmentOctets after := drop_left' (by simp)
  have hall : segmentOctets (before ++ List.replicate n 0 ++ after) =
      segmentOctets before ++ List.replicate (2 * n) 0 ++ segmentOctets after := by
    rw [← segmentOctets_zeros]
    simp [segmentOctets]
  rw [expandEllipsis, if_neg (by simp), if_pos hshort, htake, hdrop, hgap, hall]

/-- Compressed text is read back: what stands before and after `::`, with the zeros between. -/
theorem ipv6Octets_compressed (input : List Char) (before after : List Nat) (hn : 0 < n)
    (hlen : before.length + n + after.length = 8) (hbefore : ∀ g ∈ before, g ≤ 65535)
    (hafter : ∀ g ∈ after, g ≤ 65535) :
    ipv6Octets input (segmentChars before ++ "::".toList ++ segmentChars after) =
      .ok (segmentOctets (before ++ List.replicate n 0 ++ after)) := by
  have hexpand := expandEllipsis_run input before after hn hlen
  cases before with
  | nil =>
    cases after with
    | nil =>
      obtain rfl : n = 8 := by simpa using hlen
      rfl
    | cons g rest =>
      obtain ⟨c, tail, htail, hc⟩ := segmentChars_head (g :: rest) (by simp)
      have hloop := ipv6Loop_segments input (some 0) (cons_ne_nil g rest) hafter 8
        (by simp at hlen ⊢; omega) [] (by simp at hlen ⊢; omega)
      have hstrip : stripStart "::".toList
          (segmentChars [] ++ "::".toList ++ segmentChars (g :: rest)) =
          some (segmentChars (g :: rest)) := by simp [segmentChars, stripStart]
      rw [ipv6Octets, hstrip, htail]
      change ipv6Loop input 8 (c :: tail) [] (some 0) >>= expandEllipsis input = _
      rw [← htail, hloop]
      exact hexpand
  | cons g rest =>
    obtain ⟨c, tail, htail, hc⟩ := segmentChars_head (g :: rest) (by simp)
    have hstrip : stripStart "::".toList
        (segmentChars (g :: rest) ++ "::".toList ++ segmentChars after) = none := by
      simp [htail, stripStart, Ne.symm hc]
    have hloop := ipv6Loop_segments_colons input (cons_ne_nil g rest) hbefore
      (segmentChars after) (8 - (g :: rest).length) [] (by simp at hlen ⊢; omega)
    have hturns : 8 - (g :: rest).length + (g :: rest).length = 8 := by omega
    have htext : segmentChars (g :: rest) ++ "::".toList ++ segmentChars after =
        segmentChars (g :: rest) ++ ':' :: ':' :: segmentChars after := by simp
    rw [hturns, length_nil, Nat.zero_add, nil_append] at hloop
    simp only [ipv6Octets, hstrip]
    rw [htext, hloop]
    cases after with
    | nil =>
      rw [if_pos (show segmentChars [] = [] from rfl)]
      simpa [segmentOctets, bind, Except.bind] using hexpand
    | cons g' rest' =>
      obtain ⟨c', tail', htail', -⟩ := segmentChars_head (g' :: rest') (by simp)
      rw [if_neg (by simp [htail']), ipv6Loop_segments input _ (cons_ne_nil g' rest') hafter _
        (by omega) _ (by simp at hlen ⊢; omega)]
      exact hexpand

/-- Uncompressed text of all eight segments is read back. -/
theorem ipv6Octets_plain (input : List Char) (segments : List Nat) (hlen : segments.length = 8)
    (hle : ∀ g ∈ segments, g ≤ 65535) :
    ipv6Octets input (segmentChars segments) = .ok (segmentOctets segments) := by
  have hne : segments ≠ [] := by
    rintro rfl
    simp at hlen
  obtain ⟨c, tail, htail, hc⟩ := segmentChars_head segments hne
  have hstrip : stripStart "::".toList (segmentChars segments) = none := by
    simp [htail, stripStart, Ne.symm hc]
  have hloop := ipv6Loop_segments input none hne hle 8 (by omega) [] (by simp; omega)
  simp only [ipv6Octets, hstrip, hloop]
  simp [expandEllipsis, bind, Except.bind, hlen]

/-- Up to four hexadecimal digits are scanned to their end, whatever they stand for. -/
theorem hexField_digits (input text tail : List Char)
    (htail : ∀ c ∈ tail.head?, hexDigit c = none) (digits : List Char)
    (hdigits : ∀ c ∈ digits, ∃ d < 16, hexDigit c = some d) (value offset : Nat)
    (hoffset : offset + digits.length ≤ 4) (hvalue : value < 16 ^ offset) :
    ∃ read, hexField input text value offset (digits ++ tail) =
      .ok (read, offset + digits.length, tail) := by
  induction digits generalizing value offset with
  | nil =>
    refine ⟨value, ?_⟩
    cases tail with
    | nil => rfl
    | cons c rest => simp [hexField, htail c rfl]
  | cons c rest ih =>
    obtain ⟨d, hd, hc⟩ := hdigits c (by simp)
    simp only [length_cons] at hoffset ⊢
    have hgrow : value * 16 + d < 16 ^ (offset + 1) := by
      omega
    have hfits : 16 ^ (offset + 1) ≤ 16 ^ 4 := Nat.pow_le_pow_right (by decide) (by omega)
    obtain ⟨read, hread⟩ := ih (fun x hx => hdigits x (by simp [hx])) (value * 16 + d)
      (offset + 1) (by omega) hgrow
    refine ⟨read, ?_⟩
    rw [cons_append, hexField, hc]
    simp only
    rw [if_neg (by omega), if_neg (by omega), hread]
    congr 3
    omega

/-- The last turn of the field loop on a dotted address. -/
theorem ipv6Loop_dotted (input : List Char) (turns value start : Nat) {octets : List Nat}
    (hlen : octets.length ≤ 12) :
    ipv6Loop input (turns + 1) (v4Chars value) octets (some start) =
      .ok ([], octets ++ v4Octets value, some start) := by
  obtain ⟨tail, htail⟩ : ∃ tail,
      v4Chars value = decimal (value / 2 ^ 24 % 256) ++ '.' :: tail := by
    refine ⟨decimal (value / 2 ^ 16 % 256) ++ '.' :: decimal (value / 2 ^ 8 % 256) ++
      '.' :: decimal (value % 256), ?_⟩
    simp only [v4Chars, append_assoc, cons_append]
  have hshort : (decimal (value / 2 ^ 24 % 256)).length ≤ 3 :=
    (Nat.length_toDigits_le_iff (by decide) (by decide)).mpr (by omega)
  have hdigits : ∀ c ∈ decimal (value / 2 ^ 24 % 256),
      ∃ d < 16, hexDigit c = some d := by
    intro c hc
    obtain ⟨d, hd, rfl⟩ := mem_toDigits (by decide) hc
    exact ⟨d, by omega, hexDigit_digitChar (by omega)⟩
  obtain ⟨read, hread⟩ := hexField_digits input (v4Chars value) ('.' :: tail)
    (by simp [hexDigit]) _ hdigits 0 0 (by omega) (by decide)
  rw [← htail, Nat.zero_add] at hread
  have hcount : (decimal (value / 2 ^ 24 % 256)).length ≠ 0 := by
    simpa using decimal_ne_nil _
  rw [ipv6Loop, if_pos (by omega), hread]
  simp only [head?_cons, if_neg hcount, if_true]
  rw [if_neg (by simp), if_neg (by omega), ipv4Fields_v4Chars]
  rfl

/-- A dotted address behind `::ffff:` is read back into the last two segments. -/
theorem ipv6Octets_mapped (input : List Char) (value : Nat) :
    ipv6Octets input ("::ffff:".toList ++ v4Chars value) =
      .ok (List.replicate 10 0 ++ [255, 255] ++ v4Octets value) := by
  obtain ⟨c, tail, htail, hc⟩ : ∃ c tail, v4Chars value = c :: tail ∧ c ≠ ':' := by
    obtain ⟨c, rest, hdec⟩ := exists_cons_of_ne_nil
      (decimal_ne_nil (value / 2 ^ 24 % 256))
    refine ⟨c, rest ++ '.' :: decimal (value / 2 ^ 16 % 256) ++
      '.' :: decimal (value / 2 ^ 8 % 256) ++ '.' :: decimal (value % 256), ?_, ?_⟩
    · rw [v4Chars, hdec]
      simp only [cons_append]
    · rintro rfl
      exact not_mem_decimal (c := ':') (by decide) _ (by rw [hdec]; simp)
  have hstrip : stripStart "::".toList ("::ffff:".toList ++ v4Chars value) =
      some (hex 65535 ++ ':' :: v4Chars value) := rfl
  have hfirst : ipv6Loop input 8 (hex 65535 ++ ':' :: v4Chars value) [] (some 0) =
      .ok ([], [255, 255] ++ v4Octets value, some 0) := by
    rw [htail, ipv6Loop_colon input 7 (some 0) (by decide) (by decide) hc tail, ← htail]
    exact ipv6Loop_dotted input 6 value 0 (by decide)
  obtain ⟨c', tail', htail'⟩ : ∃ c' tail',
      hex 65535 ++ ':' :: v4Chars value = c' :: tail' := ⟨'f', _, rfl⟩
  rw [ipv6Octets, hstrip, htail']
  change ipv6Loop input 8 (c' :: tail') [] (some 0) >>= expandEllipsis input = _
  rw [← htail', hfirst]
  simp [bind, Except.bind, expandEllipsis, v4Octets]

/-! ## Addresses -/

lemma ipv6Octets_v6Chars (input : List Char) (h : value < 2 ^ 128) :
    ∃ octets, ipv6Octets input (v6Chars value) = .ok octets ∧ packNat 256 octets = value := by
  have hle := v6Segments_le value
  have hsegments : packNat 256 (segmentOctets (v6Segments value)) = value := by
    rw [packNat_segmentOctets, packNat_v6Segments h]
  unfold v6Chars
  split
  · refine ⟨_, ipv6Octets_mapped input (value % 2 ^ 32), ?_⟩
    rw [packNat_append, packNat_v4Octets (by omega)]
    have hffff : packNat 256 (List.replicate 10 0 ++ [255, 255]) = 65535 := by decide
    have hwidth : (v4Octets (value % 2 ^ 32)).length = 4 := rfl
    rw [hffff, hwidth]
    omega
  · simp only
    split
    · obtain ⟨hbound, hall⟩ := take_zeros_drop (longestZeroRun_in (v6Segments value)) (by omega)
      have hlen : (v6Segments value).length = 8 := rfl
      refine ⟨_, ipv6Octets_compressed input _ _ (n := (longestZeroRun (v6Segments value)).len)
        (by omega) ?_ ?_ ?_, ?_⟩
      · rw [length_take, length_drop]
        omega
      · exact fun g hg => hle g (mem_of_mem_take hg)
      · exact fun g hg => hle g (mem_of_mem_drop hg)
      · rw [hall, hsegments]
    · exact ⟨_, ipv6Octets_plain input _ rfl hle, hsegments⟩

/-- The first separator of a text that starts with digits and goes on with one. -/
theorem find_separator {digits : List Char} (hdigits : '.' ∉ digits ∧ ':' ∉ digits ∧ '%' ∉ digits)
    (hc : c = '.' ∨ c = ':' ∨ c = '%') :
    (digits ++ c :: tail).find? (fun c => c = '.' ∨ c = ':' ∨ c = '%') = some c := by
  have hnone : digits.find? (fun c => c = '.' ∨ c = ':' ∨ c = '%') = none := by
    rw [find?_eq_none]
    intro x hx
    simp only [decide_eq_true_eq]
    rintro (rfl | rfl | rfl)
    exacts [hdigits.1 hx, hdigits.2.1 hx, hdigits.2.2 hx]
  rw [find?_append, hnone, Option.none_or, find?_cons_of_pos (by simpa using hc)]

lemma parseAddress_v4Chars (h : value < 2 ^ 32) :
    parseAddress (v4Chars value) = .ok (.ofNat .v4 value, none) := by
  have hfind : (v4Chars value).find? (fun c => c = '.' ∨ c = ':' ∨ c = '%') = some '.' := by
    rw [v4Chars]
    simp only [append_assoc]
    refine find_separator ⟨?_, ?_, ?_⟩ (by simp) <;>
      exact not_mem_decimal (by decide) _
  rw [parseAddress, hfind]
  simp only [ipv4Fields_v4Chars, Except.map, ofV4Octets, packNat_v4Octets h]

lemma not_mem_segmentChars (hc : c ≠ ':') (hhex : hexDigit c = none) (segments : List Nat) :
    c ∉ segmentChars segments := by
  fun_induction segmentChars segments with
  | case1 => simp
  | case2 g => exact not_mem_hex hhex g
  | case3 g rest _ ih => simp [not_mem_hex hhex g, hc, ih]

lemma not_mem_v4Chars (hc : c ≠ '.') (hdec : decDigit c = none) (value : Nat) :
    c ∉ v4Chars value := by
  simp [v4Chars, not_mem_decimal hdec, hc]

lemma percent_not_mem_v6Chars (value : Nat) : '%' ∉ v6Chars value := by
  have hsegments := not_mem_segmentChars (c := '%') (by decide) (by decide)
  have hdotted := not_mem_v4Chars (c := '%') (by decide) (by decide)
  unfold v6Chars
  split
  · simp [hdotted]
  simp only
  split
  · simp [hsegments]
  · exact hsegments _

/-- The first separator of a printed IPv6 address is a colon. -/
theorem find_separator_v6Chars (value : Nat) :
    (v6Chars value).find? (fun c => c = '.' ∨ c = ':' ∨ c = '%') = some ':' := by
  have hhex : ∀ g, '.' ∉ hex g ∧ ':' ∉ hex g ∧ '%' ∉ hex g := fun g =>
    ⟨not_mem_hex (by decide) g, not_mem_hex (by decide) g,
      not_mem_hex (by decide) g⟩
  have hsegments : ∀ (g : Nat) (rest : List Nat) (tail : List Char),
      (segmentChars (g :: rest) ++ ':' :: tail).find?
        (fun c => c = '.' ∨ c = ':' ∨ c = '%') = some ':' := by
    intro g rest tail
    cases rest with
    | nil => exact find_separator (hhex g) (by simp)
    | cons g' rest =>
      rw [segmentChars, append_assoc, cons_append]
      · exact find_separator (hhex g) (by simp)
      · simp
  unfold v6Chars
  split
  · rfl
  simp only
  split
  · cases (v6Segments value).take (longestZeroRun (v6Segments value)).start with
    | nil => rfl
    | cons g rest =>
      rw [append_assoc]
      exact hsegments g rest _
  · exact find_separator (hhex (value / 2 ^ 112 % 65536)) (by simp)

lemma parseAddress_v6Chars (h : value < 2 ^ 128) :
    parseAddress (v6Chars value) = .ok (.ofNat .v6 value, none) := by
  obtain ⟨octets, hoctets, hpack⟩ := ipv6Octets_v6Chars (v6Chars value) h
  have hzone := splitOnce_eq_none_iff.mpr (percent_not_mem_v6Chars value)
  rw [parseAddress, find_separator_v6Chars]
  simp only [ipv6Address, hzone, hoctets, Except.map, ofV6Octets, hpack]

/-- A printed address parses to itself, without a zone. -/
theorem parseAddress_chars : parseAddress ip.chars = .ok (ip, none) := by
  cases ip with
  | v4 a =>
    have h := parseAddress_v4Chars a.isLt
    rwa [show IpAddr.ofNat .v4 a = .v4 a from ofNat_family_value (.v4 a)] at h
  | v6 a =>
    have h := parseAddress_v6Chars a.isLt
    rwa [show IpAddr.ofNat .v6 a = .v6 a from ofNat_family_value (.v6 a)] at h

@[simp] lemma parseAddr_toString : parseAddr ip.toString = .ok (ip, none) := by
  rw [parseAddr, IpAddr.toString, String.toList_ofList, parseAddress_chars]

lemma parseAddress_zoned (h : value < 2 ^ 128) {zone : List Char} (hzone : zone ≠ []) :
    parseAddress (v6Chars value ++ '%' :: zone) =
      .ok (.ofNat .v6 value, some (String.ofList zone)) := by
  obtain ⟨octets, hoctets, hpack⟩ := ipv6Octets_v6Chars (v6Chars value ++ '%' :: zone) h
  have hsplit : splitOnce '%' (v6Chars value ++ '%' :: zone) = some (v6Chars value, zone) :=
    splitOnce_append (percent_not_mem_v6Chars value)
  have hfind : (v6Chars value ++ '%' :: zone).find? (fun c => c = '.' ∨ c = ':' ∨ c = '%') =
      some ':' := by
    rw [find?_append, find_separator_v6Chars]
    rfl
  rw [parseAddress, hfind]
  cases zone with
  | nil => exact absurd rfl hzone
  | cons c zone => simp only [ipv6Address, hsplit, hoctets, Except.map, ofV6Octets, hpack]

variable {text : List Char}

/-- Only an IPv6 address has a zone, and no zone is empty. -/
theorem zone_of_parseAddress {ip : IpAddr} (h : parseAddress text = .ok (ip, some zone)) :
    ip.family = .v6 ∧ zone.toList ≠ [] := by
  have hv6 : ∀ octets, (ofV6Octets octets).family = .v6 := fun octets => rfl
  unfold parseAddress at h
  split at h
  · cases hfields : ipv4Fields text text <;> simp [hfields, Except.map] at h
  · unfold ipv6Address at h
    split at h
    · cases h
    · rename_i text' zone' hne _
      cases hoctets : ipv6Octets text text' with
      | error e => simp [hoctets, Except.map] at h
      | ok octets =>
        simp only [hoctets] at h
        obtain ⟨rfl, rfl⟩ := h
        exact ⟨hv6 octets, by simpa using hne⟩
    · cases hoctets : ipv6Octets text text <;> simp [hoctets, Except.map] at h
  · cases h
  · cases h

/-- A printed address with its zone parses to both. -/
theorem parseAddr_zoned {text : String} {ip : IpAddr} (h : parseAddr text = .ok (ip, some zone)) :
    parseAddr (ip.toString ++ "%" ++ zone) = .ok (ip, some zone) := by
  obtain ⟨hfamily, hzone⟩ := zone_of_parseAddress h
  cases ip with
  | v4 a => cases hfamily
  | v6 a =>
    have hparse := parseAddress_zoned a.isLt hzone
    rw [show IpAddr.ofNat .v6 a = .v6 a from ofNat_family_value (.v6 a),
      String.ofList_toList] at hparse
    rw [parseAddr, ← hparse]
    simp [IpAddr.toString, IpAddr.chars]

/-! ## Prefixes -/

lemma parseBits_decimal (h : n ≤ 128) : parseBits (decimal n) = some (n : Int) := by
  have all : ∀ k : Fin 129, parseBits (decimal k) = some ((k : Nat) : Int) := by
    decide +kernel
  exact all ⟨n, by omega⟩

/-- A printed prefix parses to its address, host bits included, and its length. -/
@[simp] theorem parsePrefix_toString (net : IpNet) :
    parsePrefix net.toString = .ok (net.addr, net.prefixLen) := by
  have hslash := not_mem_decimal (c := '/') (by decide) net.prefixLen
  have hle := net.prefixLen_le
  have hbits := parseBits_decimal (hle.trans (by cases net.addr.family <;> decide))
  rw [parsePrefix, IpNet.toString, String.toList_ofList, IpNet.chars, parsePrefixChars,
    rsplitOnce_append hslash]
  simp [parseAddress_chars, hbits, hle, Except.mapError]

/-! ## Characters of addresses -/

/-- A character that can stand in an address outside its zone. -/
def AddressChar (c : Char) : Prop := hexDigit c ≠ none ∨ c = ':' ∨ c = '.'

lemma addressChar_of_decDigit {d : Nat} (h : decDigit c = some d) : AddressChar c := by
  unfold decDigit at h
  split at h
  · rename_i hc
    exact .inl (by simp [hexDigit, hc])
  · cases h

lemma ipv4Loop_chars {input : List Char} {prev : Option Char} {result : List Nat}
    {value digits : Nat} (h : ipv4Loop input prev fields value digits text = .ok result) :
    ∀ c ∈ text, AddressChar c := by
  induction text generalizing prev fields value digits with
  | nil => simp
  | cons c rest ih =>
    rw [ipv4Loop] at h
    refine forall_mem_cons.mpr ?_
    cases hc : decDigit c with
    | some d =>
      simp only [hc] at h
      split at h
      · cases h
      split at h
      · cases h
      · exact ⟨addressChar_of_decDigit hc, ih h⟩
    | none =>
      simp only [hc] at h
      split at h
      · rename_i hdot
        split at h
        · cases h
        split at h
        · cases h
        · exact ⟨.inr (.inr hdot), ih h⟩
      · cases h

variable {rest : List Char} (hrest : ∀ c ∈ rest, AddressChar c)

include hrest

lemma hexField_chars {input text : List Char} {value offset : Nat} {cs : List Char}
    {read count : Nat} (h : hexField input text value offset cs = .ok (read, count, rest)) :
    ∀ c ∈ cs, AddressChar c := by
  induction cs generalizing value offset with
  | nil => simp
  | cons c cs ih =>
    rw [hexField] at h
    cases hc : hexDigit c with
    | none =>
      simp only [hc] at h
      cases h
      exact hrest
    | some d =>
      simp only [hc] at h
      split at h
      · cases h
      split at h
      · cases h
      · exact forall_mem_cons.mpr ⟨.inl (by simp [hc]), ih h⟩

/-- The field loop passes over such characters only. -/
theorem ipv6Loop_chars {input : List Char} {turns : Nat} {octets : List Nat}
    {ellipsis : Option Nat} {read : List Nat} {stop : Option Nat}
    (h : ipv6Loop input turns text octets ellipsis = .ok (rest, read, stop)) :
    ∀ c ∈ text, AddressChar c := by
  have hcolon : AddressChar ':' := .inr (.inl rfl)
  induction turns generalizing text octets ellipsis with
  | zero =>
    cases h
    exact hrest
  | succ turns ih =>
    rw [ipv6Loop] at h
    split at h
    swap
    · cases h
      exact hrest
    cases hfield : hexField input text 0 0 text with
    | error e => simp [hfield] at h
    | ok found =>
      obtain ⟨value, count, tail⟩ := found
      simp only [hfield] at h
      split at h
      · cases h
      split at h
      · -- A dotted tail: the whole text is read as IPv4 fields.
        split at h
        · cases h
        split at h
        · cases h
        cases hv4 : ipv4Fields input text with
        | error e => simp [hv4, Except.map] at h
        | ok fields => exact ipv4Loop_chars hv4
      refine hexField_chars ?_ hfield
      split at h
      · simp
      · cases h
      · split at h
        · cases h
        split at h
        · rename_i hmore
          simpa [hmore] using hcolon
        · exact forall_mem_cons.mpr ⟨hcolon, forall_mem_cons.mpr ⟨hcolon, ih h⟩⟩
      · exact forall_mem_cons.mpr ⟨hcolon, ih h⟩
      · cases h

omit hrest

lemma ipv6Octets_chars {input text : List Char} {octets : List Nat}
    (h : ipv6Octets input text = .ok octets) : ∀ c ∈ text, AddressChar c := by
  have hcolon : AddressChar ':' := .inr (.inl rfl)
  -- Whatever the loop leaves must be empty for the address to be accepted.
  have hloop : ∀ {start ellipsis}, ipv6Loop input 8 start [] ellipsis >>= expandEllipsis input =
      .ok octets → ∀ c ∈ start, AddressChar c := by
    intro start ellipsis hrun
    cases hread : ipv6Loop input 8 start [] ellipsis with
    | error e => simp [hread, bind, Except.bind] at hrun
    | ok found =>
      obtain ⟨rest, read, stop⟩ := found
      refine ipv6Loop_chars ?_ hread
      by_cases hrest : rest = []
      · simp [hrest]
      · simp [hread, bind, Except.bind, expandEllipsis, hrest] at hrun
  unfold ipv6Octets at h
  split at h
  · rename_i hstrip
    simpa [stripStart_eq hstrip] using hcolon
  · rename_i rest _ hstrip
    simpa [stripStart_eq hstrip, hcolon] using hloop h
  · exact hloop h

/-- Outside a zone, an accepted address has only digits, dots and colons. -/
theorem parseAddress_addressChar {found : IpAddr × Option String}
    (h : parseAddress text = .ok found) (hzone : '%' ∉ text) : ∀ c ∈ text, AddressChar c := by
  unfold parseAddress at h
  split at h
  · cases hfields : ipv4Fields text text with
    | error e => simp [hfields, Except.map] at h
    | ok fields => exact ipv4Loop_chars hfields
  · unfold ipv6Address at h
    rw [splitOnce_eq_none_iff.mpr hzone] at h
    cases hoctets : ipv6Octets text text with
    | error e => simp [hoctets, Except.map] at h
    | ok octets => exact ipv6Octets_chars hoctets
  · cases h
  · cases h

end Headscale.GoNetip
