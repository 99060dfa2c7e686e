import Ummanu.Library.Json
import Ummanu.Library.Loops

/-!
# Which value a secret's file opens to

A secret is kept as an envelope in a file of its own. The id goes into the key that seals the value and into
the header the cipher authenticates, but a reader takes both from the envelope and not from the id that was
asked for. `readSecret_sealed` says what is left of the binding: whatever a read returns was sealed under the
id its envelope names, which is the asked one exactly if the envelope names it. A copied file shows that
nothing else ensures this (`readSecret_copiedFile`).

The cipher is a parameter, and taken to be ideal: it opens only what `sealValue` encrypted (`Host.Authentic`).
An object lists its members in the
order of their keys, which is how the header's bytes are written, so a header stands for its bytes. The files are
arbitrary: whatever was renamed, copied, deleted or edited. An id is one the store has cleaned; a refusal carries
what its message shows.
-/

set_option autoImplicit false

namespace Ummanu.Secrets

open Library

abbrev Bytes := List UInt8

/-- What sealing takes from its libraries. -/
structure Host where
  b64 : Bytes → String
  unb64 : String → Option Bytes
  str : Json → String
  int : Json → Option Int
  hkdf : (key salt : Bytes) → (info : String) → (length : Int) → Option Bytes
  encrypt : (subkey nonce value : Bytes) → (header : Json) → Bytes
  decrypt : (subkey nonce ciphertext : Bytes) → (header : Json) → Option Bytes

inductive Refusal
  | catalog
  | key
  | unknown (id : String)
  | missing (id : String)
  | unreadable (id : String)
  | notEnvelope
  | version (found : Json)
  | aead (found : Json)
  | kdf (found : Json)
  | parameters
  | base64 (what : String)
  | unopened (id : Json)
  deriving DecidableEq

/-- One call of `seal_value`, with the bytes it drew. -/
structure Sealing where
  id : String
  value : Bytes
  salt : Bytes
  nonce : Bytes

/-- The store's files, each as reading it answers. -/
structure Store where
  catalog : Except Refusal (List String)
  key : Except Refusal Bytes
  values : String → Except Refusal Json

variable (host : Host)

/-- A member that has to be there. -/
def member (value : Json) (name : String) (refusal : Refusal) : Except Refusal Json :=
  (value.find name).elim (.error refusal) .ok

def unb64 (value : Json) (name : String) (refusal : Refusal) : Except Refusal Bytes := do
  let text ← member value name refusal
  (host.unb64 (host.str text)).elim (.error (.base64 ("envelope " ++ name))) .ok

def deriveValueKey (key : Bytes) (header : Json) : Except Refusal Bytes := do
  let kdf := header.get "kdf"
  if kdf.get "id" = .str "hkdf-sha256" then
    let length ← (host.int (← member kdf "length" .parameters)).elim (.error .parameters) .ok
    let salt ← unb64 host kdf "salt" .parameters
    let info ← member kdf "info" .parameters
    (host.hkdf key salt (host.str info ++ ":" ++ host.str (header.get "id")) length).elim (.error .parameters) .ok
  else .error (.kdf kdf)

/-- The members of an envelope, in the order of their keys. -/
def Sealing.members (sealing : Sealing) (ciphertext : List (String × Json)) : List (String × Json) :=
  ("aead", .obj [("id", .str "chacha20poly1305"), ("nonce", .str (host.b64 sealing.nonce))]) :: ciphertext ++
    [("format", .str "ummanu.secret-envelope"), ("id", .str sealing.id),
      ("kdf", .obj [("id", .str "hkdf-sha256"), ("info", .str "ummanu/secret/v1"), ("length", .num "32"),
        ("salt", .str (host.b64 sealing.salt))]),
      ("version", .num "1")]

def Sealing.header (sealing : Sealing) : Json := .obj (sealing.members host [])

def sealValue (key : Bytes) (sealing : Sealing) : Except Refusal Json := do
  let subkey ← deriveValueKey host key (sealing.header host)
  let ciphertext := host.encrypt subkey sealing.nonce sealing.value (sealing.header host)
  return .obj (sealing.members host [("ciphertext", .str (host.b64 ciphertext))])

/-- The open part of an envelope. -/
def headerOf : Json → Json
  | .obj members => .obj (members.filter (·.1 ≠ "ciphertext"))
  | other => other

/-- The value compares equal to the version `1`; `1.0` and `True` do as well. -/
def isVersion (value : Json) : Bool := value ∈ [.num "1", .num "1.0", .bool true]

def openValue (key : Bytes) (envelope : Json) : Except Refusal Bytes :=
  let aead := envelope.get "aead"
  let unopened := Refusal.unopened (envelope.get "id")
  if envelope.get "format" ≠ .str "ummanu.secret-envelope" then .error .notEnvelope
  else if ¬ isVersion (envelope.get "version") then .error (.version (envelope.get "version"))
  else if aead.get "id" ≠ .str "chacha20poly1305" then .error (.aead aead)
  else do
    let subkey ← deriveValueKey host key (headerOf envelope)
    let nonce ← unb64 host aead "nonce" unopened
    let ciphertext ← unb64 host envelope "ciphertext" unopened
    (host.decrypt subkey nonce ciphertext (headerOf envelope)).elim (.error unopened) .ok

def readSecret (store : Store) (id : String) : Except Refusal Bytes := do
  if id ∈ (← store.catalog) then
    let key ← store.key
    openValue host key (← store.values id)
  else .error (.unknown id)

/-! ### The cipher -/

/-- The ciphertext is what a sealing encrypted under this subkey, nonce and header. -/
def Sealing.Encrypted (sealing : Sealing) (key subkey nonce ciphertext : Bytes) (header : Json) : Prop :=
  sealing.header host = header ∧ deriveValueKey host key header = .ok subkey ∧ sealing.nonce = nonce ∧
    host.encrypt subkey nonce sealing.value header = ciphertext

instance (sealing : Sealing) (key subkey nonce ciphertext : Bytes) (header : Json) :
    Decidable (sealing.Encrypted host key subkey nonce ciphertext header) := by
  unfold Sealing.Encrypted
  infer_instance

/-- What opens under subkeys of a key is what was sealed with it. -/
def Host.Authentic (key : Bytes) (sealings : List Sealing) : Prop :=
  ∀ subkey nonce ciphertext header value, host.decrypt subkey nonce ciphertext header = some value →
    ∃ sealing ∈ sealings, sealing.Encrypted host key subkey nonce ciphertext header ∧ sealing.value = value

/-- The host with a cipher that opens exactly what was sealed. -/
def Host.ideal (key : Bytes) (sealings : List Sealing) : Host :=
  { host with decrypt := fun subkey nonce ciphertext header ↦
      (sealings.find? (·.Encrypted host key subkey nonce ciphertext header)).map (·.value) }

theorem Host.authentic_ideal (key : Bytes) (sealings : List Sealing) :
    (host.ideal key sealings).Authentic key sealings := by
  intro subkey nonce ciphertext header value hopen
  obtain ⟨sealing, hfind, hvalue⟩ := Option.map_eq_some_iff.mp hopen
  have hencr : sealing.Encrypted host key subkey nonce ciphertext header := by
    simpa using List.find?_some hfind
  exact ⟨sealing, List.mem_of_find?_eq_some hfind, hencr, hvalue⟩

/-! ### What a read returns -/

variable {host}

/-- Taking the ciphertext away does not change the id an envelope names. -/
theorem get_id_headerOf (envelope : Json) : (headerOf envelope).get "id" = envelope.get "id" := by
  cases envelope with
  | obj _ =>
    simp only [headerOf, Json.get, Json.find, List.find?_filter]
    congr! 3 with _ member
    grind
  | _ => rfl

/-- What opens was sealed under the id the envelope names. -/
theorem openValue_sealed {key value : Bytes} {sealings : List Sealing} {envelope : Json}
    (hcipher : host.Authentic key sealings) (hopen : openValue host key envelope = .ok value) :
    ∃ sealing ∈ sealings, sealing.value = value ∧ envelope.get "id" = .str sealing.id := by
  simp only [openValue] at hopen
  split_ifs at hopen
  obtain ⟨subkey, -, hopen⟩ := bind_eq_ok hopen
  obtain ⟨nonce, -, hopen⟩ := bind_eq_ok hopen
  obtain ⟨ciphertext, -, hopen⟩ := bind_eq_ok hopen
  cases hdecr : host.decrypt subkey nonce ciphertext (headerOf envelope) with
  | none => simp [hdecr] at hopen
  | some opened =>
    obtain rfl : opened = value := by simpa [hdecr] using hopen
    obtain ⟨sealing, hmem, hencr, hvalue⟩ := hcipher _ _ _ _ _ hdecr
    refine ⟨sealing, hmem, hvalue, ?_⟩
    rw [← get_id_headerOf, ← hencr.1]
    rfl

/-- A read returns a value that was sealed, and under the asked id exactly if the file's envelope names it. -/
theorem readSecret_sealed {sealings : List Sealing} {store : Store} {id : String} {value : Bytes}
    (hcipher : ∀ key, store.key = .ok key → host.Authentic key sealings)
    (hread : readSecret host store id = .ok value) :
    ∃ envelope, store.values id = .ok envelope ∧
      ∃ sealing ∈ sealings, sealing.value = value ∧ (envelope.get "id" = .str id ↔ sealing.id = id) := by
  obtain ⟨_, -, hread⟩ := bind_eq_ok hread
  split_ifs at hread
  obtain ⟨key, hkey, hread⟩ := bind_eq_ok hread
  obtain ⟨envelope, hvalue, hread⟩ := bind_eq_ok hread
  obtain ⟨sealing, hsealing, hsame, hid⟩ := openValue_sealed (hcipher key hkey) hread
  exact ⟨envelope, hvalue, sealing, hsealing, hsame, by simp [hid]⟩

/-- A host whose texts are bytes as they stand and whose cipher adds the subkey in front. -/
def plainHost : Host where
  b64 raw := String.ofList (raw.map fun byte ↦ Char.ofNat byte.toNat)
  unb64 text := some (text.toList.map fun c ↦ UInt8.ofNat c.toNat)
  str value := value.text.getD "None"
  int _ := some 32
  hkdf key salt info _ := some (key ++ salt ++ info.toList.map fun c ↦ UInt8.ofNat c.toNat)
  encrypt subkey nonce value _ := subkey ++ nonce ++ value
  decrypt _ _ _ _ := none

/-- Two secrets, of which the file of `b` holds what was sealed for `named`. -/
def pairStore (named : Sealing) : Store where
  catalog := .ok ["a", "b"]
  key := .ok [7]
  values id := if id = "b" then sealValue plainHost [7] named else .error (.missing id)

def sealedA : Sealing := ⟨"a", [1], [2], [3]⟩

def sealedB : Sealing := ⟨"b", [4], [5], [6]⟩

def pairHost : Host := plainHost.ideal [7] [sealedA, sealedB]

theorem pairHost_authentic (named : Sealing) (key : Bytes) (hkey : (pairStore named).key = .ok key) :
    pairHost.Authentic key [sealedA, sealedB] := by
  cases hkey
  exact plainHost.authentic_ideal [7] [sealedA, sealedB]

theorem readSecret_sealed_witness :
    readSecret pairHost (pairStore sealedB) "b" = .ok [4] ∧
      ∃ envelope, (pairStore sealedB).values "b" = .ok envelope ∧
        ∃ sealing ∈ [sealedA, sealedB], sealing.value = [4] ∧ (envelope.get "id" = .str "b" ↔ sealing.id = "b") :=
  ⟨by decide +kernel, readSecret_sealed (pairHost_authentic sealedB) (by decide +kernel)⟩

/-- The envelope sealed for `a`, copied to the file of `b`, opens under `b` to the value of `a`, although no
value of `b` was ever that one. -/
theorem readSecret_copiedFile :
    pairHost.Authentic [7] [sealedA, sealedB] ∧ readSecret pairHost (pairStore sealedA) "b" = .ok [1] ∧
      ∀ sealing ∈ [sealedA, sealedB], sealing.id = "b" → sealing.value ≠ [1] :=
  ⟨pairHost_authentic sealedA [7] rfl, by decide +kernel⟩

end Ummanu.Secrets
