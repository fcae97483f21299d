import Mathlib.Tactic.IntervalCases
import Headscale.Lib.Text

/-!
# Signed messages

What a control request signs is a tag and a list of fields. Each field has its length before it, so
whatever text a field holds, the fields can be read back.
-/

namespace Headscale.Control

open Text List

/-- The bytes of one field. -/
def field (value : String) : List UInt8 :=
  utf8 (decimal (utf8 value.toList).length) ++ asciiByte ':' :: (utf8 value.toList ++ [asciiByte '\n'])

def appendField (out : List UInt8) (value : String) : List UInt8 := out ++ field value

def boolField (value : Bool) : String := if value then "1" else "0"

/-- `to_string` of a number. -/
def number (n : Nat) : String := String.ofList (decimal n)

@[ext] structure NodeCapabilities where
  relay : Bool
  inference : Bool
  storage : Bool
  compute : Bool
  seed : Bool

@[ext] structure RegisterRequest where
  id : String
  name : String
  wgPubkey : String
  endpoints : List String
  capabilities : NodeCapabilities

/-- `SignedTransferRequest` without its signature. -/
structure TransferRequest where
  sender : String
  recipient : String
  amount : Nat
  description : String
  timestampMillis : Nat
  nonce : String

/-- The fields of a registration, in the order in which they are appended. -/
def registerFields (req : RegisterRequest) (timestampMillis : Nat) (nonce : String) : List String :=
  [req.id, req.name, req.wgPubkey, number req.endpoints.length] ++ req.endpoints ++
    [boolField req.capabilities.relay, boolField req.capabilities.inference,
      boolField req.capabilities.storage, boolField req.capabilities.compute,
      boolField req.capabilities.seed, number timestampMillis, nonce]

def canonicalNodeRegisterMessage (req : RegisterRequest) (timestampMillis : Nat) (nonce : String) :
    List UInt8 :=
  (registerFields req timestampMillis nonce).foldl appendField
    (utf8 "headscale-control-register-v1\n".toList)

def canonicalNodeHeartbeatMessage (method pathAndQuery nodeId : String) (timestampMillis : Nat)
    (nonce : String) : List UInt8 :=
  [method, pathAndQuery, nodeId, number timestampMillis, nonce].foldl appendField
    (utf8 "headscale-control-heartbeat-v1\n".toList)

def canonicalTransferMessage (req : TransferRequest) : List UInt8 :=
  [req.sender, req.recipient, number req.amount, req.description, number req.timestampMillis,
    req.nonce].foldl appendField (utf8 "headscale-control-transfer-v1\n".toList)

/-- The requests that are signed. -/
inductive SignedRequest where
  | register (req : RegisterRequest) (timestampMillis : Nat) (nonce : String)
  | heartbeat (method pathAndQuery nodeId : String) (timestampMillis : Nat) (nonce : String)
  | transfer (req : TransferRequest)

def SignedRequest.message : SignedRequest → List UInt8
  | .register req timestampMillis nonce => canonicalNodeRegisterMessage req timestampMillis nonce
  | .heartbeat method pathAndQuery nodeId timestampMillis nonce =>
    canonicalNodeHeartbeatMessage method pathAndQuery nodeId timestampMillis nonce
  | .transfer req => canonicalTransferMessage req

/-! ## Fields are read back -/

lemma colon_not_mem_decimal (n : Nat) : asciiByte ':' ∉ utf8 (decimal n) := by
  have hascii : ∀ c ∈ decimal n, c.toNat < 128 ∧ asciiByte c ≠ asciiByte ':' := by
    intro c hc
    obtain ⟨d, hd, rfl⟩ := mem_toDigits (by decide) hc
    interval_cases d <;> decide
  rw [utf8_ascii fun c hc => (hascii c hc).1, mem_map]
  rintro ⟨c, hc, heq⟩
  exact (hascii c hc).2 heq

/-- No field is the beginning of another. -/
theorem field_append_inj {a b : String} {rest rest' : List UInt8}
    (h : field a ++ rest = field b ++ rest') : a = b ∧ rest = rest' := by
  simp only [field, append_assoc, cons_append] at h
  -- the length ends at the first colon
  have hdigits := congrArg (idxOf (asciiByte ':')) h
  rw [idxOf_append_of_notMem (colon_not_mem_decimal _), idxOf_append_of_notMem (colon_not_mem_decimal _),
    idxOf_cons_self, idxOf_cons_self] at hdigits
  obtain ⟨hlength, htail⟩ := append_inj h hdigits
  have hlength := decimal_injective (utf8_injective hlength)
  obtain ⟨hvalue, hrest⟩ := append_inj (cons.inj htail).2 hlength
  exact ⟨String.toList_injective (utf8_injective hvalue), (cons.inj hrest).2⟩

lemma foldl_appendField (tag : List UInt8) (values : List String) :
    values.foldl appendField tag = tag ++ values.flatMap field := by
  induction values generalizing tag with
  | nil => simp
  | cons value values ih => rw [foldl_cons, ih, appendField, flatMap_cons, append_assoc]

/-- The fields of a message are read back. -/
theorem foldl_appendField_inj {tag : List UInt8} {values values' : List String}
    (h : values.foldl appendField tag = values'.foldl appendField tag) : values = values' := by
  rw [foldl_appendField, foldl_appendField, append_cancel_left_eq] at h
  induction values generalizing values' with
  | nil =>
    cases values' with
    | nil => rfl
    | cons value values' => simp [field] at h
  | cons value values ih =>
    cases values' with
    | nil => simp [field] at h
    | cons value' values' =>
      obtain ⟨rfl, hvalues⟩ := field_append_inj h
      rw [ih hvalues]

lemma number_inj {m n : Nat} : number m = number n ↔ m = n :=
  String.ofList_inj.trans decimal_injective.eq_iff

lemma boolField_inj {a b : Bool} : boolField a = boolField b ↔ a = b := by
  revert a b
  decide

/-! ## Messages -/

lemma registerFields_inj {req req' : RegisterRequest} {timestampMillis timestampMillis' : Nat}
    {nonce nonce' : String}
    (h : registerFields req timestampMillis nonce = registerFields req' timestampMillis' nonce') :
    req = req' ∧ timestampMillis = timestampMillis' ∧ nonce = nonce' := by
  have hlength : req.endpoints.length = req'.endpoints.length := by
    simpa [registerFields] using congrArg length h
  obtain ⟨hfirst, hlast⟩ := append_inj h (by simp [hlength])
  obtain ⟨hnames, hendpoints⟩ := append_inj hfirst rfl
  simp only [cons.injEq, and_true, boolField_inj, number_inj] at hnames hlast
  obtain ⟨hid, hname, hkey, -⟩ := hnames
  obtain ⟨hrelay, hinference, hstorage, hcompute, hseed, hrest⟩ := hlast
  exact ⟨RegisterRequest.ext hid hname hkey hendpoints
    (NodeCapabilities.ext hrelay hinference hstorage hcompute hseed), hrest⟩

namespace SignedRequest

/-- The first letter of the kind. -/
def letter : SignedRequest → UInt8
  | .register .. => 114
  | .heartbeat .. => 104
  | .transfer .. => 116

/-- It comes after the beginning that all tags share. -/
lemma getElem?_message (r : SignedRequest) : r.message[18]? = some r.letter := by
  cases r <;> simp only [message, canonicalNodeRegisterMessage, foldl_appendField]
  all_goals
    rfl

/-- The bytes that are signed determine the request, whatever texts its fields hold. -/
theorem message_determines_request : Function.Injective message := by
  intro r r' h
  have hkind := congrArg (·[18]?) h
  simp only [getElem?_message] at hkind
  unfold message at h
  cases r with
  | register req timestampMillis nonce =>
    cases r' with
    | register req' timestampMillis' nonce' =>
      obtain ⟨rfl, rfl, rfl⟩ := registerFields_inj (foldl_appendField_inj h)
      rfl
    | heartbeat | transfer => simp [letter] at hkind
  | heartbeat =>
    cases r' with
    | heartbeat =>
      simpa [number_inj] using foldl_appendField_inj h
    | register | transfer => simp [letter] at hkind
  | transfer req =>
    cases r' with
    | transfer req' =>
      have hfields := foldl_appendField_inj h
      simp only [cons.injEq, number_inj] at hfields
      cases req
      cases req'
      simpa using hfields
    | register | heartbeat => simp [letter] at hkind

end SignedRequest

end Headscale.Control
