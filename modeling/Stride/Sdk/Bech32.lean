import Stride.Sdk.Math
import Mathlib.Data.String.Basic

/-!
# Bech32 Addresses

An address is a human readable part, the character `1`, and a data part that ends with a
checksum of six characters. Keepers accept an address of a host zone if it decodes, has the
human readable part of the zone and holds 20 or 32 bytes.
-/

namespace Stride.Sdk

open List

/-! ## Checksum -/

/-- The characters of the data part, in the order of their values. -/
def charset : List Char := "qpzry9x8gf2tvdw0s3jn54khce6mua7l".toList

/-- Coefficients of the generator polynomial. -/
def generator : List ℕ := [0x3b6a57b2, 0x26508e6d, 0x1ea119fa, 0x3d4233dd, 0x2a1462b3]

/-- One value of the checksum. -/
def polymodStep (chk v : ℕ) : ℕ :=
  let top := chk >>> 25
  let shifted := ((chk &&& 0x1ffffff) <<< 5) ^^^ v
  generator.zipIdx.foldl (fun acc g => if top.testBit g.2 then acc ^^^ g.1 else acc) shifted

/-- The human readable part goes into the checksum as high bits, a zero and low bits. -/
def hrpExpand (hrp : List Char) : List ℕ :=
  hrp.map (fun c => c.toNat >>> 5) ++ 0 :: hrp.map fun c => c.toNat &&& 31

def verifyChecksum (hrp : List Char) (data : List ℕ) : Bool :=
  (hrpExpand hrp ++ data).foldl polymodStep 1 = 1

/-! ## Decoding -/

/-- Splits at the last `1`. -/
def splitAtLastOne (bech : List Char) : Option (List Char × List Char) :=
  match bech.reverse.dropWhile (· ≠ '1') with
  | [] => none
  | _ :: hrp => some (hrp.reverse, (bech.reverse.takeWhile (· ≠ '1')).reverse)

/-- `bech32.Decode`: the human readable part, and the values of the data part without the
    checksum. -/
def decodeBech32 (bech : String) : Result (List Char × List ℕ) := do
  let chars := bech.toList
  require (8 ≤ chars.length ∧ chars.length ≤ 1023) .plain
    s!"invalid bech32 string length {chars.length}"
  require (chars.all fun c => 33 ≤ c.toNat ∧ c.toNat ≤ 126) .plain "invalid character in string"
  let lower := chars.map Char.toLower
  require (chars = lower ∨ chars = chars.map Char.toUpper) .plain
    "string not all lowercase or all uppercase"
  match splitAtLastOne lower with
  | none => wrapf .plain "invalid index of 1"
  | some (hrp, data) =>
    require (hrp ≠ [] ∧ 6 ≤ data.length) .plain "invalid index of 1"
    match data.mapM fun c => charset.idxOf? c with
    | none => wrapf .plain "failed converting data to bytes"
    | some decoded =>
      require (verifyChecksum hrp decoded) .plain "checksum failed"
      return (hrp, decoded.take (decoded.length - 6))

/-- Bytes from bits. What is left over has less than five bits, all of them zero. -/
def groupBytes : List Bool → Option (List ℕ)
  | b₇ :: b₆ :: b₅ :: b₄ :: b₃ :: b₂ :: b₁ :: b₀ :: rest =>
    (groupBytes rest).map fun bz =>
      [b₇, b₆, b₅, b₄, b₃, b₂, b₁, b₀].foldl (fun n b => 2 * n + b.toNat) 0 :: bz
  | rest => if rest.length ≤ 4 ∧ ∀ b ∈ rest, b = false then some [] else none

/-- `bech32.ConvertBits` from groups of five bits to bytes, without padding. -/
def convertBits (data : List ℕ) : Option (List ℕ) :=
  groupBytes (data.flatMap fun v => [4, 3, 2, 1, 0].map v.testBit)

def decodeAndConvert (bech : String) : Result (List Char × List ℕ) := do
  let (hrp, data) ← decodeBech32 bech
  match convertBits data with
  | none => wrapf .plain "invalid incomplete group"
  | some bz => return (hrp, bz)

/-- `VerifyAddressFormat`: base accounts have 20 bytes, module and interchain accounts 32. -/
def verifyAddressFormat (bz : List ℕ) : Result Unit :=
  require (bz.length = 20 ∨ bz.length = 32) .plain s!"incorrect address length {bz.length}"

def accAddressFromBech32 (address bech32Prefix : String) : Result (List ℕ) := do
  require (address.toList.any fun c => ¬ c.isWhitespace) .plain
    "empty address string is not allowed"
  let (hrp, bz) ← decodeAndConvert address
  require (hrp = bech32Prefix.toList) .plain
    s!"invalid Bech32 prefix; expected {bech32Prefix}, got {String.ofList hrp}"
  verifyAddressFormat bz
  return bz

/-- `sdk.AccAddressFromBech32`, with the account under its canonical address: decoding does not
    tell an address in upper case from the same address in lower case. -/
def strideAccount (address : String) : Result String := do
  let _ ← accAddressFromBech32 address "stride"
  return String.ofList (address.toList.map Char.toLower)

/-! ## Characters of an accepted address -/

variable {c : Char} {data hrp : List Char}

private theorem eq_of_splitAtLastOne {bech : List Char}
    (h : splitAtLastOne bech = some (hrp, data)) :
    bech = hrp ++ '1' :: data := by
  unfold splitAtLastOne at h
  split at h
  · cases h
  rename_i c rest hrest
  cases h
  have hone : c = '1' := by
    have hhead := head?_dropWhile_not (· ≠ '1') bech.reverse
    rw [hrest] at hhead
    simpa using hhead
  have hsplit := takeWhile_append_dropWhile (p := (· ≠ '1')) (l := bech.reverse)
  rw [hrest, hone] at hsplit
  have hbech := congrArg reverse hsplit
  simpa using hbech.symm

private theorem mem_charset_of_mapM {decoded : List ℕ}
    (h : (data.mapM fun c => charset.idxOf? c) = some decoded) (hc : c ∈ data) : c ∈ charset := by
  induction data generalizing decoded with
  | nil => cases hc
  | cons d data ih =>
    rw [mapM_cons] at h
    obtain ⟨v, hv, h⟩ := Option.bind_eq_some_iff.mp h
    obtain ⟨vs, hvs, -⟩ := Option.bind_eq_some_iff.mp h
    rcases mem_cons.mp hc with rfl | hc
    · by_contra hnot
      rw [idxOf?_eq_none_iff.mpr hnot] at hv
      cases hv
    · exact ih hvs hc

private theorem decodeBech32_ok {bech : String} {values : List ℕ}
    (h : decodeBech32 bech = .ok (hrp, values)) :
    ∃ data, bech.toList.map Char.toLower = hrp ++ '1' :: data ∧ ∀ c ∈ data, c ∈ charset := by
  obtain ⟨_, -, h⟩ := bind_eq_ok.mp h
  obtain ⟨_, -, h⟩ := bind_eq_ok.mp h
  obtain ⟨_, -, h⟩ := bind_eq_ok.mp h
  split at h
  · cases h
  rename_i hrp' data hsplit
  obtain ⟨_, -, h⟩ := bind_eq_ok.mp h
  split at h
  · cases h
  rename_i decoded hdecoded
  obtain ⟨_, -, h⟩ := bind_eq_ok.mp h
  cases h
  exact ⟨data, eq_of_splitAtLastOne hsplit, fun c hc => mem_charset_of_mapM hdecoded hc⟩

/-- A lower case character outside of the alphabet can only come from the human readable
    part. -/
theorem notMem_of_accAddressFromBech32 {address bech32Prefix : String} {bz : List ℕ}
    (h : accAddressFromBech32 address bech32Prefix = .ok bz) (hlower : c.toLower = c)
    (hone : c ≠ '1') (hcharset : c ∉ charset) (hhuman : c ∉ bech32Prefix.toList) :
    c ∉ address.toList := by
  obtain ⟨_, -, h⟩ := bind_eq_ok.mp h
  obtain ⟨⟨hrp, bytes⟩, hdecode, h⟩ := bind_eq_ok.mp h
  obtain ⟨_, hhrp, -⟩ := bind_eq_ok.mp h
  rw [require_eq_ok] at hhrp
  obtain ⟨⟨hrp', values⟩, hvalues, hconvert⟩ := bind_eq_ok.mp hdecode
  obtain rfl : hrp' = hrp := by
    dsimp only at hconvert
    split at hconvert
    · cases hconvert
    cases hconvert
    rfl
  obtain ⟨data, hsplit, hdata⟩ := decodeBech32_ok hvalues
  intro hmem
  -- in lower case, an address is its prefix, a 1 and the data
  have hmem' : c ∈ hrp' ++ '1' :: data := by
    rw [← hsplit, ← hlower]
    exact mem_map_of_mem hmem
  rcases mem_append.mp hmem' with hin | hin
  · exact hhuman (hhrp ▸ hin)
  · rcases mem_cons.mp hin with heq | hin
    · exact hone heq
    · exact hcharset (hdata c hin)

end Stride.Sdk
