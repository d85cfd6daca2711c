import CCattler.Go.Strings

/-! # The DNS server

What is sent in answer to one query packet. A slice expression that reaches outside
the packet panics and takes the server down; that outcome is `none`.
-/

namespace CCattler.Network

open Go List Option

/-- `packet[low:high]`. A packet is copied to its length, so it has no capacity
beyond that. -/
def slice (packet : List UInt8) (low high : Nat) : Option (List UInt8) :=
  if low ≤ high ∧ high ≤ packet.length then some ((packet.take high).drop low) else none

/-- `binary.BigEndian.Uint16`. -/
def uint16 (bytes : List UInt8) : Nat := (bytes.getD 0 0).toNat * 256 + (bytes.getD 1 0).toNat

/-- `binary.BigEndian.PutUint16`. -/
def putUint16 (value : Nat) : List UInt8 := [UInt8.ofNat (value / 256), UInt8.ofNat value]

/-- The result of `net.IP.To4`. -/
abbrev IPv4 := {address : List UInt8 // address.length = 4}

/-- The server with what it asks of its libraries; an error is `none`. -/
structure DNSServer where
  domain : Str
  toLower : Str → Str
  resolveVIP : Str → Option Str
  resolveHostname : Str → Option Str
  parseIPv4 : Str → Option IPv4

/-! ## Responses -/

section

variable (transactionID : Nat) (questionSection : List UInt8)

def responseHeader (flags answerCount : Nat) : List UInt8 :=
  putUint16 transactionID ++ (putUint16 flags ++ putUint16 1 ++ putUint16 answerCount ++
    [0, 0, 0, 0] ++ questionSection)

def sendNXDomainResponse : List UInt8 := responseHeader transactionID questionSection 0x8403 0

def sendEmptyResponse : List UInt8 := responseHeader transactionID questionSection 0x8400 0

def buildDNSARecordResponse (ipv4Address : IPv4) : List UInt8 :=
  responseHeader transactionID questionSection 0x8400 1 ++
    (putUint16 0xC00C ++ putUint16 1 ++ putUint16 1 ++ [0, 0, 0, 30] ++ putUint16 4 ++
      ipv4Address.val)

end

/-! ## Queries -/

def parseDNSQuestionName (packet : List UInt8) (currentOffset : Nat) (nameLabels : List Str) :
    Option (Str × Nat) :=
  if h : currentOffset < packet.length then
    let labelLength := packet[currentOffset].toNat
    if labelLength = 0 then some (Str.join (lit ".") nameLabels, currentOffset + 1)
    else if currentOffset + 1 + labelLength > packet.length then some ([], 0)
    else (slice packet (currentOffset + 1) (currentOffset + 1 + labelLength)).bind fun label =>
      parseDNSQuestionName packet (currentOffset + 1 + labelLength) (nameLabels ++ [label])
  -- the packet may end before the name does
  else some (Str.join (lit ".") nameLabels, currentOffset)
termination_by packet.length - currentOffset

section

variable (server : DNSServer)

/-- The address of a name in the domain. -/
def DNSServer.resolve (queryName : Str) : Option (Option IPv4) :=
  let queryNameLower := server.toLower queryName
  let domainSuffix := lit "." ++ server.domain
  if queryNameLower.hasSuffix domainSuffix then
    let serviceName := queryNameLower.take (queryNameLower.length - domainSuffix.length)
    let found := ((server.resolveVIP serviceName).filter (· ≠ [])).or
      ((server.resolveHostname serviceName).filter (· ≠ []))
    found.map server.parseIPv4
  else none

/-- The answer to a query that is not of another type. -/
def answerAddress (transactionID : Nat) (queryName : Str)
    (question : Option (List UInt8)) : Option (Option (List UInt8)) :=
  match server.resolve queryName with
  | none => question.map fun questionSection =>
      some (sendNXDomainResponse transactionID questionSection)
  -- an address that is not IPv4 gets no answer, and the question is not read
  | some none => some none
  | some (some parsedIP) =>
    question.map fun questionSection =>
      some (buildDNSARecordResponse transactionID questionSection parsedIP)

def handleDNSQuery (queryPacket : List UInt8) : Option (Option (List UInt8)) :=
  if queryPacket.length < 12 then some none
  else (slice queryPacket 0 2).bind fun idBytes =>
    (parseDNSQuestionName queryPacket 12 []).bind fun (queryName, queryNameEndOffset) =>
      let transactionID := uint16 idBytes
      let question := slice queryPacket 12 (queryNameEndOffset + 4)
      if queryName = [] then some none
      -- the type is checked only if there is room for it
      else if queryNameEndOffset + 4 ≤ queryPacket.length then
        (slice queryPacket queryNameEndOffset (queryNameEndOffset + 2)).bind fun queryType =>
          if uint16 queryType ≠ 1 then
            question.map fun questionSection =>
              some (sendEmptyResponse transactionID questionSection)
          else answerAddress server transactionID queryName question
      else answerAddress server transactionID queryName question

end

/-! ## Safety -/

theorem slice_eq {packet : List UInt8} {low high : Nat} (hlow : low ≤ high)
    (hhigh : high ≤ packet.length) :
    slice packet low high = some ((packet.take high).drop low) :=
  if_pos ⟨hlow, hhigh⟩

theorem slice_append (before middle rest : List UInt8) :
    slice (before ++ middle ++ rest) before.length (before.length + middle.length) =
      some middle := by
  rw [slice_eq (Nat.le_add_right _ _) (by simp), ← length_append, take_left, drop_left]

theorem putUint16_uint16 {bytes : List UInt8} (h : bytes.length = 2) :
    putUint16 (uint16 bytes) = bytes := by
  obtain ⟨high, low, rfl⟩ := length_eq_two.mp h
  have hlow := low.toNat_lt
  have hhigh : (uint16 [high, low]) / 256 = high.toNat := by
    simp only [uint16, getD_cons_zero, getD_cons_succ]
    omega
  rw [putUint16, hhigh]
  simp [uint16]

/-! ## Encoded names -/

/-- A label has at least one byte, and as many as a length byte can say. -/
abbrev Label := {label : Str // label ≠ [] ∧ label.length < 256}

/-- Every label stands after its length. -/
def encodeName (labels : List Label) : List UInt8 :=
  labels.flatMap fun label => UInt8.ofNat label.val.length :: label.val

/-- The name that labels make up. -/
def dottedName (labels : List Label) : Str := Str.join (lit ".") (labels.map Subtype.val)

theorem dottedName_eq_nil {labels : List Label} : dottedName labels = [] ↔ labels = [] := by
  match labels with
  | [] => exact iff_of_true rfl rfl
  | [label] => simpa [dottedName, Str.join] using label.2.1
  | label :: _ :: _ => simp [dottedName, Str.join, intercalate, label.2.1]

/-- Bytes begin with an encoded name, which the end, a zero byte or a cut label follows. -/
theorem exists_encodeName (bytes : List UInt8) : ∃ labels rest, bytes = encodeName labels ++ rest ∧
    (rest = [] ∨ (∃ tail, rest = 0 :: tail) ∨
      ∃ first tail, rest = first :: tail ∧ first.toNat ≠ 0 ∧ tail.length < first.toNat) := by
  match bytes with
  | [] => exact ⟨[], [], rfl, Or.inl rfl⟩
  | first :: tail =>
    by_cases hzero : first.toNat = 0
    · obtain rfl : first = 0 := UInt8.toNat_inj.mp hzero
      exact ⟨[], 0 :: tail, rfl, Or.inr (Or.inl ⟨tail, rfl⟩)⟩
    by_cases hfits : tail.length < first.toNat
    · exact ⟨[], first :: tail, rfl, Or.inr (Or.inr ⟨first, tail, rfl, hzero, hfits⟩)⟩
    obtain ⟨labels, rest, hsplit, hrest⟩ := exists_encodeName (tail.drop first.toNat)
    have hlength : (tail.take first.toNat).length = first.toNat := by
      rw [length_take]
      omega
    have hlabel : tail.take first.toNat ≠ [] ∧ (tail.take first.toNat).length < 256 :=
      ⟨by rw [← length_pos_iff]; omega, by rw [hlength]; exact first.toNat_lt⟩
    refine ⟨⟨_, hlabel⟩ :: labels, rest, ?_, hrest⟩
    rw [encodeName, flatMap_cons, hlength, UInt8.ofNat_toNat, ← encodeName, append_assoc, ← hsplit,
      cons_append, take_append_drop]
termination_by bytes.length
decreasing_by rw [length_drop, length_cons]; omega

section Parsing

variable (before rest : List UInt8) (nameLabels : List Str)

/-- One label is read and the offset moves past it. -/
theorem parseDNSQuestionName_label (label : Label) :
    parseDNSQuestionName (before ++ UInt8.ofNat label.val.length :: label.val ++ rest)
        before.length nameLabels =
      parseDNSQuestionName (before ++ UInt8.ofNat label.val.length :: label.val ++ rest)
        (before ++ UInt8.ofNat label.val.length :: label.val).length
        (nameLabels ++ [label.val]) := by
  have hslice := slice_append (before ++ [UInt8.ofNat label.val.length]) label.val rest
  rw [length_append, length_singleton, append_assoc before, singleton_append] at hslice
  have hcode : (UInt8.ofNat label.val.length).toNat = label.val.length :=
    Nat.mod_eq_of_lt label.2.2
  rw [parseDNSQuestionName, dif_pos (by simp)]
  simp only [append_assoc, cons_append, getElem_append_right, le_refl,
    Nat.sub_self, getElem_cons_zero, hcode] at hslice ⊢
  rw [if_neg (by simpa using label.2.1), if_neg (by simp; omega), hslice, bind_some]
  simp [Nat.add_assoc, Nat.add_comm 1]

/-- The loop reads the labels of an encoded name one after the other. -/
theorem parseDNSQuestionName_labels (labels : List Label) :
    parseDNSQuestionName (before ++ encodeName labels ++ rest) before.length nameLabels =
      parseDNSQuestionName (before ++ encodeName labels ++ rest)
        (before ++ encodeName labels).length (nameLabels ++ labels.map Subtype.val) := by
  induction labels generalizing before nameLabels with
  | nil => simp [encodeName]
  | cons label more ih =>
    have hfirst := parseDNSQuestionName_label before (encodeName more ++ rest) nameLabels label
    have hmore := ih (before ++ UInt8.ofNat label.val.length :: label.val)
      (nameLabels ++ [label.val])
    simp only [encodeName, flatMap_cons, map_cons, append_assoc, cons_append, nil_append] at *
    rw [hfirst, hmore]

theorem parseDNSQuestionName_end : parseDNSQuestionName before before.length nameLabels =
    some (Str.join (lit ".") nameLabels, before.length) := by
  rw [parseDNSQuestionName, dif_neg (lt_irrefl _)]

theorem parseDNSQuestionName_zero :
    parseDNSQuestionName (before ++ 0 :: rest) before.length nameLabels =
      some (Str.join (lit ".") nameLabels, before.length + 1) := by
  rw [parseDNSQuestionName, dif_pos (by simp)]
  simp

theorem parseDNSQuestionName_cut {first : UInt8} (hzero : first.toNat ≠ 0)
    (hcut : rest.length < first.toNat) :
    parseDNSQuestionName (before ++ first :: rest) before.length nameLabels = some ([], 0) := by
  rw [parseDNSQuestionName, dif_pos (by simp)]
  simp [hzero]
  omega

end Parsing

section

variable (server : DNSServer)

/-- An answer echoes the query's ID. -/
theorem answerAddress_some (transactionID : Nat) (queryName : Str) (question : List UInt8) :
    ∃ sent, answerAddress server transactionID queryName (some question) = some sent ∧
      ∀ response ∈ sent, response.take 2 = putUint16 transactionID := by
  unfold answerAddress
  split
  · exact ⟨_, rfl, fun _ h => by cases h; rfl⟩
  · exact ⟨_, rfl, fun _ h => by cases h⟩
  · exact ⟨_, rfl, fun _ h => by cases h; rfl⟩

theorem answerAddress_none (transactionID : Nat) (queryName : Str) :
    answerAddress server transactionID queryName none =
      if server.resolve queryName = some none then some none else none := by
  unfold answerAddress
  split <;> simp_all

variable (queryPacket : List UInt8)

/-- The server answers inside the packet and under the query's ID. -/
def PacketSafe : Prop :=
  ∃ sent, handleDNSQuery server queryPacket = some sent ∧
    ∀ response ∈ sent, response.take 2 = queryPacket.take 2

/-- The name ends with the packet or with a zero byte, and type and class are missing. -/
def CutShort (rest : List UInt8) : Prop := rest = [] ∨ ∃ tail, rest = 0 :: tail ∧ tail.length < 4

/-- A name is followed by its type and class, or it resolves to something that is
not an IPv4 address. -/
def QuestionComplete : Prop :=
  ∀ labels rest, labels ≠ [] → queryPacket.drop 12 = encodeName labels ++ rest →
    CutShort rest → server.resolve (dottedName labels) = some none

/-- Safety of a packet whose name parses, by its question's end. -/
theorem packetSafe_of_parsed {name : Str} {endOffset : Nat} (hlong : 12 ≤ queryPacket.length)
    (hparse : parseDNSQuestionName queryPacket 12 [] = some (name, endOffset))
    (hstart : name ≠ [] → 12 ≤ endOffset) :
    PacketSafe server queryPacket ↔
      (name ≠ [] → endOffset + 4 ≤ queryPacket.length ∨ server.resolve name = some none) := by
  unfold PacketSafe handleDNSQuery
  have hid : putUint16 (uint16 (queryPacket.take 2)) = queryPacket.take 2 :=
    putUint16_uint16 (by rw [length_take]; omega)
  rw [if_neg (Nat.not_lt.mpr hlong), slice_eq (Nat.zero_le 2) (by omega), hparse, bind_some,
    bind_some, drop_zero]
  generalize uint16 (queryPacket.take 2) = transactionID at hid ⊢
  simp only [← hid]
  split
  next hname => simp [hname]
  next hname =>
    have hstart := hstart hname
    split
    next hroom =>
      rw [slice_eq (by omega) (by omega), slice_eq (by omega) hroom, bind_some]
      refine iff_of_true ?_ fun _ => Or.inl hroom
      split
      · exact ⟨_, rfl, fun _ h => by cases h; rfl⟩
      · exact answerAddress_some server _ name _
    next hroom =>
      rw [slice, if_neg (by omega), answerAddress_none]
      split
      next hresolve => simp [hresolve]
      next hresolve => simp [hname, hroom, hresolve]

section Encoded

variable {queryPacket} {labels : List Label} {rest : List UInt8}
  (hlong : 12 ≤ queryPacket.length) (hsplit : queryPacket.drop 12 = encodeName labels ++ rest)
include hlong hsplit

theorem exists_before : ∃ before, queryPacket = before ++ rest ∧ 12 ≤ before.length ∧
    parseDNSQuestionName queryPacket 12 [] =
      parseDNSQuestionName queryPacket before.length (labels.map Subtype.val) := by
  have hpacket : queryPacket = queryPacket.take 12 ++ encodeName labels ++ rest := by
    rw [append_assoc, ← hsplit, take_append_drop]
  have hheader : (queryPacket.take 12).length = 12 := length_take_of_le hlong
  refine ⟨_, hpacket, by simp [hheader], ?_⟩
  have hlabels := parseDNSQuestionName_labels (queryPacket.take 12) rest [] labels
  rwa [hheader, ← hpacket, nil_append] at hlabels

/-- Where the name ends, the answer depends on what comes after it. -/
theorem packetSafe_of_ended (hend : rest = [] ∨ ∃ tail, rest = 0 :: tail) :
    PacketSafe server queryPacket ↔
      (labels ≠ [] → CutShort rest → server.resolve (dottedName labels) = some none) := by
  obtain ⟨before, rfl, hbefore, hparse⟩ := exists_before hlong hsplit
  rcases hend with rfl | ⟨tail, rfl⟩
  · rw [append_nil] at hlong hparse ⊢
    rw [parseDNSQuestionName_end] at hparse
    rw [packetSafe_of_parsed server _ hlong hparse fun _ => hbefore, ← dottedName]
    have hroom : ¬ before.length + 4 ≤ before.length := by omega
    simp [CutShort, dottedName_eq_nil, hroom]
  · rw [parseDNSQuestionName_zero] at hparse
    rw [packetSafe_of_parsed server _ hlong hparse fun _ => by omega, ← dottedName]
    have hroom : before.length + 1 + 4 ≤ (before ++ 0 :: tail).length ↔ ¬ tail.length < 4 := by
      rw [length_append, length_cons]
      omega
    rw [hroom]
    simp [CutShort, dottedName_eq_nil, or_iff_not_imp_left]

end Encoded

/-- A query is handled safely exactly if its question is complete. -/
theorem packetSafe_iff : PacketSafe server queryPacket ↔ QuestionComplete server queryPacket := by
  by_cases hlong : 12 ≤ queryPacket.length
  swap
  · refine iff_of_true ⟨none, if_pos (Nat.lt_of_not_le hlong), nofun⟩ ?_
    intro labels rest hlabels hsplit _
    rw [drop_eq_nil_of_le (by omega), eq_comm, append_eq_nil_iff] at hsplit
    obtain ⟨label, more, rfl⟩ := exists_cons_of_ne_nil hlabels
    cases hsplit.1
  constructor
  · intro hsafe labels rest hlabels hsplit hshort
    refine (packetSafe_of_ended server hlong hsplit ?_).mp hsafe hlabels hshort
    exact hshort.imp_right fun ⟨tail, hrest, _⟩ => ⟨tail, hrest⟩
  · intro hcomplete
    obtain ⟨labels, rest, hsplit, hrest⟩ := exists_encodeName (queryPacket.drop 12)
    rcases or_assoc.mpr hrest with hend | ⟨first, tail, rfl, hzero, hcut⟩
    · exact (packetSafe_of_ended server hlong hsplit hend).mpr fun hlabels =>
        hcomplete labels rest hlabels hsplit
    -- a name that is cut inside a label gets no answer
    · obtain ⟨before, rfl, hbefore, hparse⟩ := exists_before hlong hsplit
      rw [parseDNSQuestionName_cut _ _ _ hzero hcut] at hparse
      exact (packetSafe_of_parsed server _ hlong hparse (absurd rfl)).mpr (absurd rfl)

end

/-- A server without services. -/
def emptyServer : DNSServer := ⟨lit "cca.local", id, fun _ => none, fun _ => none, fun _ => none⟩

/-- A header and the label `a`, with nothing after it. -/
def endlessName : List UInt8 := List.replicate 12 0 ++ [1, 97]

theorem endlessName_not_safe : ¬ PacketSafe emptyServer endlessName := by
  have hparse : parseDNSQuestionName endlessName 12 [] = some (lit "a", 14) := by
    simp [parseDNSQuestionName, endlessName]
    rfl
  have hpanic : handleDNSQuery emptyServer endlessName = none := by
    rw [handleDNSQuery, hparse]
    decide
  rintro ⟨sent, hsent, -⟩
  exact some_ne_none sent (hsent.symm.trans hpanic)

end CCattler.Network
