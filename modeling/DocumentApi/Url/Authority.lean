import DocumentApi.Failure
import DocumentApi.Text.Percent
import DocumentApi.Text.Pieces

/-!
The authority of an address, which is read only to be refused where it is ill-formed: brackets must
enclose an IPv6 address or one of a future version, and no character may stand for a delimiter.
-/

set_option autoImplicit false

namespace DocumentApi.Url

open Text

def isOctet (cs : List Char) : Bool :=
  cs.all Numeral.isPlainDigit && !cs.isEmpty && cs.length ≤ 3
    && (cs = ['0'] || cs.head? ≠ some '0') && Numeral.ofDigits cs ≤ 255

def isIpv4 (cs : List Char) : Bool :=
  let octets := pieces '.' cs
  octets.length = 4 && octets.all isOctet

def isGroup (cs : List Char) : Bool := !cs.isEmpty && cs.length ≤ 4 && cs.all Percent.isHexDigit

/-- Groups without an omission, eight in all; or up to seven around one, on either side of which
there may be none. -/
def isGroups (groups : List (List Char)) : Bool :=
  let inner := (groups.drop 1).dropLast
  match inner.count [] with
  | 0 => groups.length = 8 && groups.all isGroup
  | 1 =>
    let before := groups.take (inner.idxOf [] + 1)
    let after := groups.drop (inner.idxOf [] + 2)
    let before := if before = [[]] then [] else before
    let after := if after = [[]] then [] else after
    before.length + after.length ≤ 7 && before.all isGroup && after.all isGroup
  | _ => false

/-- The last group may be written as an IPv4 address, which stands for two. -/
def expandIpv4 (groups : List (List Char)) : Option (List (List Char)) :=
  match groups.getLast? with
  | some last =>
    if '.' ∈ last then
      if isIpv4 last then some (groups.dropLast ++ [['0'], ['0']]) else none
    else some groups
  | none => some groups

/-- An IPv6 address, which may have a zone after a percent sign. -/
def isIpv6 (cs : List Char) : Bool :=
  let (address, zone) := cut '%' cs
  let groups := pieces ':' address
  '/' ∉ cs && zone.all (fun zone => !zone.isEmpty && '%' ∉ zone) && 3 ≤ groups.length
    && (expandIpv4 groups).any fun groups => groups.length ≤ 9 && isGroups groups

def isFutureAddress (cs : List Char) : Bool :=
  match cut '.' cs with
  | ('v' :: version, some rest) =>
    !version.isEmpty && version.all Percent.isHexDigit && !rest.isEmpty
  | _ => false

def checkHost (host : List Char) : Answer Unit :=
  if host.head? = some 'v' then
    if isFutureAddress host then .ok () else .error (.url .badFutureAddress)
  else if isIpv4 host then .error (.url .bracketedIpv4)
  else if isIpv6 host then .ok ()
  else .error (.url (.notAnAddress (String.ofList host)))

/-- The host of an authority, between the user and the port. Brackets enclose all of it or none. -/
def hostOf? (authority : List Char) : Option (List Char) :=
  let place := (pieces '@' authority).getLast?.getD []
  match cut '[' place with
  | (_, none) => some (cut ':' place).1
  | ([], some rest) =>
    let (host, port) := cut ']' rest
    if port.all fun port => port.head?.all (· = ':') then some host else none
  | (_ :: _, some _) => none

/-- An authority with brackets anywhere must have a host of the kinds that brackets enclose. -/
def checkBrackets (authority : List Char) : Answer Unit :=
  if '[' ∈ authority ∧ ']' ∈ authority then
    (hostOf? authority).elim (.error (.url .misplacedBracket)) checkHost
  else if '[' ∈ authority ∨ ']' ∈ authority then .error (.url .misplacedBracket)
  else .ok ()

/-- Characters that are written with a delimiter once they are normalised. -/
def confusable : List Nat :=
  [0x2047, 0x2048, 0x2049, 0x2100, 0x2101, 0x2105, 0x2106, 0x2a74, 0xfe13, 0xfe16, 0xfe55, 0xfe56,
    0xfe5f, 0xfe6b, 0xff03, 0xff0f, 0xff1a, 0xff1f, 0xff20]

def checkCharacters (authority : List Char) : Answer Unit :=
  if authority.any fun c => c.toNat ∈ confusable then
    .error (.url (.confusingAuthority (String.ofList authority)))
  else .ok ()

def checkAuthority (authority : List Char) : Answer Unit := do
  checkBrackets authority
  checkCharacters authority

theorem checkHost_error {host : List Char} {failure : Failure}
    (h : checkHost host = .error failure) : ∃ fault, failure = .url fault := by
  unfold checkHost at h
  split at h
  · split at h <;> cases h
    exact ⟨_, rfl⟩
  · split at h
    · cases h
      exact ⟨_, rfl⟩
    · split at h <;> cases h
      exact ⟨_, rfl⟩

theorem checkBrackets_error {authority : List Char} {failure : Failure}
    (h : checkBrackets authority = .error failure) : ∃ fault, failure = .url fault := by
  unfold checkBrackets at h
  split at h
  · cases ho : hostOf? authority with
    | none =>
      rw [ho] at h
      cases h
      exact ⟨_, rfl⟩
    | some host =>
      rw [ho] at h
      exact checkHost_error h
  · split at h <;> cases h
    exact ⟨_, rfl⟩

theorem checkAuthority_error {authority : List Char} {failure : Failure}
    (h : checkAuthority authority = .error failure) : ∃ fault, failure = .url fault := by
  rcases Answer.bind_eq_error.mp h with hb | ⟨_, _, hc⟩
  · exact checkBrackets_error hb
  · unfold checkCharacters at hc
    split at hc <;> cases hc
    exact ⟨_, rfl⟩

example : hostOf? "u@[::1]:80".toList = some "::1".toList := by decide +kernel
example : hostOf? "x[::1]".toList = none ∧ hostOf? "[::1]x".toList = none := by decide +kernel
example : isIpv6 "::ffff:1.2.3.4%eth0".toList ∧ isIpv6 "1:2:3:4:5:6:7:8".toList := by decide +kernel
example : ¬ isIpv6 "1::2::3".toList ∧ ¬ isIpv6 ":1:2:3:4:5:6:7".toList := by decide +kernel

end DocumentApi.Url
