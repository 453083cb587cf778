import PocketCoder.Foundation.IpAddress

/-!
Private addresses (`isPrivateAddress`), which the egress proxy does not connect to.

An IPv4 address is compared as a number with the listed ranges, so the answer is
exact. An IPv6 address is compared as a text. Every group from `fc00` on is written
with four digits, so the ranges there are found in every spelling. The ranges below
are found in one spelling only: `::`, `::1`, and the texts that begin with
`2001:db8:` or `::ffff:` (`isPrivateAddress_recognises`).
-/

namespace PocketCoder.Network

open Foundation JsString

/-! ### The source -/

/-- Octets are combined by shifts of 32-bit integers. -/
def ipv4Number (address : JsString) : BitVec 32 :=
  (split dot address).foldl
    (fun value octet => value <<< 8 ||| BitVec.ofNat 32 (digitsValue octet)) 0

/-- A shift counts modulo 32. -/
def inV4Range (address : BitVec 32) (base : JsString) (bits : Nat) : Bool :=
  let mask : BitVec 32 := if bits = 0 then 0 else BitVec.allOnes 32 <<< ((32 - bits) % 32)
  address &&& mask = ipv4Number base &&& mask

def v4Ranges : List (String × Nat) :=
  [("0.0.0.0", 8),
    ("10.0.0.0", 8),
    ("100.64.0.0", 10),
    ("127.0.0.0", 8),
    ("169.254.0.0", 16),
    ("172.16.0.0", 12),
    ("192.0.0.0", 24),
    ("192.0.2.0", 24),
    ("192.168.0.0", 16),
    ("198.18.0.0", 15),
    ("198.51.100.0", 24),
    ("203.0.113.0", 24),
    ("224.0.0.0", 4),
    ("240.0.0.0", 4)]

def v6Prefixes : List String :=
  ["fc", "fd", "fe8", "fe9", "fea", "feb", "fec", "fed", "fee", "fef", "ff", "2001:db8:"]

theorem length_drop_mappedPrefix {text : JsString} (h : mappedPrefix.isPrefixOf text = true) :
    (text.drop mappedPrefix.length).length < text.length := by
  have hlength := (List.isPrefixOf_iff_prefix.mp h).length_le
  have hpos : 0 < mappedPrefix.length := by decide +kernel
  rw [List.length_drop]
  omega

def isPrivateAddress (address : JsString) : Bool :=
  if isIP address = 4 then
    v4Ranges.any fun range => inV4Range (ipv4Number address) (ascii range.1) range.2
  -- what is no address counts as private
  else if isIP address ≠ 6 then true
  else
    let normalized := toLowerCase address
    if mappedPrefix.isPrefixOf normalized then
      isPrivateAddress (normalized.drop mappedPrefix.length)
    else
      normalized = ascii "::" || normalized = ascii "::1" ||
        v6Prefixes.any fun start => (ascii start).isPrefixOf normalized
termination_by address.length
decreasing_by
  rename_i h
  have hlower : (toLowerCase address).length = address.length := List.length_map _
  rw [← hlower]
  exact length_drop_mappedPrefix h

/-! ### The ranges as numbers -/

/-- The number of the address `a.b.c.d`. -/
def v4 (a b c d : Nat) : Nat := ((a * 256 + b) * 256 + c) * 256 + d

def v4Blocks : List (Nat × Nat) :=
  [(v4 0 0 0 0, 8), (v4 10 0 0 0, 8), (v4 100 64 0 0, 10), (v4 127 0 0 0, 8),
    (v4 169 254 0 0, 16), (v4 172 16 0 0, 12), (v4 192 0 0 0, 24), (v4 192 0 2 0, 24),
    (v4 192 168 0 0, 16), (v4 198 18 0 0, 15), (v4 198 51 100 0, 24), (v4 203 0 113 0, 24),
    (v4 224 0 0 0, 4), (v4 240 0 0 0, 4)]

/-- `::`, `::1`, `fc00::/7`, `fe80::/10`, `fec0::/10`, `ff00::/8` and `2001:db8::/32`. -/
def v6Blocks : List (Nat × Nat) :=
  [(0, 128), (1, 128), (0xfc00 * 2 ^ 112, 7), (0xfe80 * 2 ^ 112, 10), (0xfec0 * 2 ^ 112, 10),
    (0xff00 * 2 ^ 112, 8), (0x20010db8 * 2 ^ 96, 32)]

/-- The IPv4 address is in a listed range. -/
def ListedV4 (value : Nat) : Prop := ∃ block ∈ v4Blocks, InBlock 32 block.1 block.2 value

/-- The IPv6 address is in a listed range, or is a listed IPv4 address in `::ffff:0:0/96`. -/
def ListedV6 (value : Nat) : Prop :=
  (∃ block ∈ v6Blocks, InBlock 128 block.1 block.2 value) ∨
    InBlock 128 (0xffff * 2 ^ 32) 96 value ∧ ListedV4 (value % 2 ^ 32)

instance (value : Nat) : Decidable (ListedV4 value) :=
  inferInstanceAs (Decidable (∃ block ∈ v4Blocks, _))

instance (value : Nat) : Decidable (ListedV6 value) :=
  inferInstanceAs (Decidable ((∃ block ∈ v6Blocks, _) ∨ _ ∧ _))

/-! ### IPv4 -/

theorem toNat_shift_or {value : BitVec 32} {octet : Nat} (hvalue : value.toNat < 2 ^ 24)
    (hoctet : octet ≤ 255) :
    (value <<< 8 ||| BitVec.ofNat 32 octet).toNat = value.toNat * 256 + octet := by
  rw [BitVec.toNat_or, BitVec.toNat_shiftLeft, BitVec.toNat_ofNat, Nat.mod_eq_of_lt (by omega),
    Nat.shiftLeft_eq, Nat.mod_eq_of_lt (by omega), ← Nat.shiftLeft_eq,
    ← Nat.shiftLeft_add_eq_or_of_lt (by omega), Nat.shiftLeft_eq]

theorem toNat_foldl_octets {octets : List Nat} (h : ∀ octet ∈ octets, octet ≤ 255)
    {value : BitVec 32} (hvalue : (value.toNat + 1) * 256 ^ octets.length ≤ 2 ^ 32) :
    (octets.foldl (fun (value : BitVec 32) octet => value <<< 8 ||| BitVec.ofNat 32 octet)
        value).toNat =
      octets.foldl (fun n octet => n * 256 + octet) value.toNat := by
  induction octets generalizing value with
  | nil => rfl
  | cons octet octets ih =>
      obtain ⟨hoctet, hoctets⟩ := List.forall_mem_cons.mp h
      rw [List.length_cons, pow_succ', ← mul_assoc] at hvalue
      have hpow : 0 < 256 ^ octets.length := Nat.pow_pos (by decide)
      have hroom : (value.toNat + 1) * 256 ≤ 2 ^ 32 :=
        Nat.le_trans (Nat.le_mul_of_pos_right _ hpow) hvalue
      have hstep := toNat_shift_or (show value.toNat < 2 ^ 24 by omega) hoctet
      rw [List.foldl_cons, List.foldl_cons, ih hoctets, hstep]
      rw [hstep]
      exact Nat.le_trans (Nat.mul_le_mul_right _ (by omega)) hvalue

theorem ipv4Number_toNat {text : JsString} {value : Nat} (h : parseV4 text = some value) :
    (ipv4Number text).toNat = value := by
  obtain ⟨a, b, c, d, na, nb, nc, nd, hsplit, ha, hb, hc, hd, rfl⟩ := parseV4_eq_some h
  obtain ⟨hna, -, ha⟩ := parseOctet_eq_some ha
  obtain ⟨hnb, -, hb⟩ := parseOctet_eq_some hb
  obtain ⟨hnc, -, hc⟩ := parseOctet_eq_some hc
  obtain ⟨hnd, -, hd⟩ := parseOctet_eq_some hd
  have hoctets : ∀ octet ∈ [na, nb, nc, nd], octet ≤ 255 := by
    simp only [List.forall_mem_cons]
    exact ⟨ha, hb, hc, hd, fun _ hnil => absurd hnil List.not_mem_nil⟩
  have hfold := toNat_foldl_octets hoctets (show ((0 : BitVec 32).toNat + 1) * 256 ^ 4 ≤ 2 ^ 32 by decide)
  rw [ipv4Number, hsplit]
  simp only [List.foldl_cons, List.foldl_nil, hna, hnb, hnc, hnd] at hfold ⊢
  rw [hfold]
  show (((0 * 256 + na) * 256 + nb) * 256 + nc) * 256 + nd = _
  rw [Nat.zero_mul, Nat.zero_add]

/-- The table of the source has the ranges. -/
theorem v4Ranges_blocks : v4Ranges.map (fun range => (parseV4 (ascii range.1), range.2)) =
    v4Blocks.map fun block => (some block.1, block.2) := by
  decide +kernel

theorem inV4Range_iff {text : JsString} {value base bits : Nat} {range : JsString}
    (hvalue : parseV4 text = some value) (hbase : parseV4 range = some base) (hpos : 0 < bits)
    (hbits : bits ≤ 32) :
    inV4Range (ipv4Number text) range bits = true ↔ InBlock 32 base bits value := by
  rw [inV4Range, if_neg (Nat.pos_iff_ne_zero.mp hpos), Nat.mod_eq_of_lt (by omega),
    decide_eq_true_eq, and_mask_inj, ipv4Number_toNat hvalue, ipv4Number_toNat hbase, InBlock]

theorem any_inV4Range_iff {text : JsString} {value : Nat} (h : parseV4 text = some value) :
    (v4Ranges.any fun range => inV4Range (ipv4Number text) (ascii range.1) range.2) = true ↔
      ListedV4 value := by
  have hbits : ∀ block ∈ v4Blocks, 0 < block.2 ∧ block.2 ≤ 32 := by decide
  rw [List.any_eq_true]
  constructor
  · rintro ⟨range, hrange, hin⟩
    have hmem := List.mem_map_of_mem (f := fun range => (parseV4 (ascii range.1), range.2)) hrange
    rw [v4Ranges_blocks, List.mem_map] at hmem
    obtain ⟨block, hblock, heq⟩ := hmem
    obtain ⟨hbase, hwidth⟩ := Prod.mk.inj heq
    obtain ⟨hpos, hle⟩ := hbits block hblock
    rw [← hwidth] at hin
    exact ⟨block, hblock, (inV4Range_iff h hbase.symm hpos hle).mp hin⟩
  · rintro ⟨block, hblock, hin⟩
    have hmem := List.mem_map_of_mem (f := fun block : Nat × Nat => (some block.1, block.2)) hblock
    rw [← v4Ranges_blocks, List.mem_map] at hmem
    obtain ⟨range, hrange, heq⟩ := hmem
    obtain ⟨hbase, hwidth⟩ := Prod.mk.inj heq
    obtain ⟨hpos, hle⟩ := hbits block hblock
    refine ⟨range, hrange, ?_⟩
    rw [hwidth]
    exact (inV4Range_iff h hbase hpos hle).mpr hin

theorem isPrivateAddress_v4 {text : JsString} {value : Nat} (h : parseV4 text = some value) :
    isPrivateAddress text = true ↔ ListedV4 value := by
  rw [isPrivateAddress, if_pos (by rw [isIP, h]; rfl), any_inV4Range_iff h]

/-! ### IPv6 -/

/-- The prefixes of hexadecimal digits. -/
def hexPrefixes : List (List Nat) :=
  [[15, 12], [15, 13], [15, 14, 8], [15, 14, 9], [15, 14, 10], [15, 14, 11], [15, 14, 12],
    [15, 14, 13], [15, 14, 14], [15, 14, 15], [15, 15]]

theorem v6Prefixes_digits : v6Prefixes.map ascii =
    hexPrefixes.map (fun digits => digits.map hexDigit) ++ [ascii "2001:db8:"] := by
  decide +kernel

theorem any_v6Prefixes_iff (text : JsString) :
    (v6Prefixes.any fun start => (ascii start).isPrefixOf text) = true ↔
      (∃ digits ∈ hexPrefixes, digits.map hexDigit <+: text) ∨ ascii "2001:db8:" <+: text := by
  have hmap : (v6Prefixes.any fun start => (ascii start).isPrefixOf text) =
      (v6Prefixes.map ascii).any fun start => start.isPrefixOf text := by
    rw [List.any_map]
    rfl
  rw [hmap, v6Prefixes_digits, List.any_append, List.any_map, Bool.or_eq_true, List.any_eq_true]
  simp only [Function.comp_apply, List.isPrefixOf_iff_prefix, List.any_cons, List.any_nil,
    Bool.or_false]

/-- Digits of a text are found in front of it only by their values. -/
theorem prefix_of_hexDigits {front digits : List Nat} {rest : JsString}
    (hfront : ∀ digit ∈ front, digit < 16) (hdigits : ∀ digit ∈ digits, digit < 16)
    (h : front.map hexDigit <+: digits.map hexDigit ++ colon :: rest) : front <+: digits := by
  have hinj : ∀ n < 16, ∀ m < 16, hexDigit n = hexDigit m → n = m := by decide
  have hcolon : ∀ n < 16, hexDigit n ≠ colon := by decide
  induction front generalizing digits with
  | nil => exact List.nil_prefix
  | cons digit front ih =>
      obtain ⟨hdigit, hfront⟩ := List.forall_mem_cons.mp hfront
      cases digits with
      | nil =>
          rw [List.map_cons, List.map_nil, List.nil_append, List.cons_prefix_cons] at h
          exact absurd h.1 (hcolon digit hdigit)
      | cons other digits =>
          obtain ⟨hother, hdigits⟩ := List.forall_mem_cons.mp hdigits
          rw [List.map_cons, List.map_cons, List.cons_append, List.cons_prefix_cons] at h
          rw [List.cons_prefix_cons]
          exact ⟨hinj digit hdigit other hother h.1, ih hfront hdigits h.2⟩

/-- The number that digits are read as. -/
def digitsGroup (digits : List Nat) : Nat := digits.foldl (fun n digit => n * 16 + digit) 0

/-- A group in the ranges from `fc00` on has one of the prefixes. -/
theorem exists_hexPrefix {digits : List Nat} (hdigits : ∀ digit ∈ digits, digit < 16)
    (hlength : digits.length ≤ 4) (hlow : 0xfc00 ≤ digitsGroup digits)
    (hgap : digitsGroup digits ≤ 0xfdff ∨ 0xfe80 ≤ digitsGroup digits) :
    ∃ front ∈ hexPrefixes, front <+: digits := by
  rcases digits with _ | ⟨a, _ | ⟨b, _ | ⟨c, _ | ⟨d, _ | ⟨e, digits⟩⟩⟩⟩⟩
  · exact absurd hlow (by decide)
  · simp only [digitsGroup, List.foldl_cons, List.foldl_nil, List.forall_mem_cons] at *
    omega
  · simp only [digitsGroup, List.foldl_cons, List.foldl_nil, List.forall_mem_cons] at *
    omega
  · simp only [digitsGroup, List.foldl_cons, List.foldl_nil, List.forall_mem_cons] at *
    omega
  · simp only [digitsGroup, List.foldl_cons, List.foldl_nil, List.forall_mem_cons] at *
    obtain rfl : a = 15 := by omega
    simp only [hexPrefixes, List.exists_mem_cons_iff, List.cons_prefix_cons, List.nil_prefix,
      true_and, and_true, List.not_mem_nil, false_and, exists_false, or_false]
    omega
  · simp only [List.length_cons] at hlength
    omega

/-- A group with one of the prefixes is in the ranges, or has fewer digits. -/
theorem digitsGroup_of_hexPrefix {digits front : List Nat}
    (hdigits : ∀ digit ∈ digits, digit < 16) (hlength : digits.length ≤ 4)
    (hmem : front ∈ hexPrefixes) (hfront : front <+: digits) :
    0xfc00 ≤ digitsGroup digits ∨ 15 ≤ digitsGroup digits ∧ digitsGroup digits < 0x1000 := by
  have hform : ∃ b more, digits = 15 :: b :: more ∧ 12 ≤ b := by
    obtain ⟨more, rfl⟩ := hfront
    simp only [hexPrefixes, List.mem_cons, List.not_mem_nil, or_false] at hmem
    rcases hmem with rfl | rfl | rfl | rfl | rfl | rfl | rfl | rfl | rfl | rfl | rfl <;>
      exact ⟨_, _, rfl, by decide⟩
  obtain ⟨b, more, rfl, hb⟩ := hform
  rcases more with _ | ⟨c, _ | ⟨d, _ | ⟨e, more⟩⟩⟩
  · simp only [digitsGroup, List.foldl_cons, List.foldl_nil, List.forall_mem_cons] at *
    omega
  · simp only [digitsGroup, List.foldl_cons, List.foldl_nil, List.forall_mem_cons] at *
    omega
  · simp only [digitsGroup, List.foldl_cons, List.foldl_nil, List.forall_mem_cons] at *
    omega
  · simp only [List.length_cons] at hlength
    omega

/-- The first group is the first 16 bits of an address. -/
theorem groupsValue_front {group : Nat} {others : List Nat}
    (hlength : (group :: others).length = 8) (h : ∀ other ∈ group :: others, other < 2 ^ 16) :
    group * 2 ^ 112 ≤ groupsValue (group :: others) ∧
      groupsValue (group :: others) < (group + 1) * 2 ^ 112 := by
  rcases others with _ | ⟨a, _ | ⟨b, _ | ⟨c, _ | ⟨d, _ | ⟨e, _ | ⟨f, _ | ⟨g, _ | ⟨i, others⟩⟩⟩⟩⟩⟩⟩⟩ <;>
    simp only [List.length_cons, List.length_nil] at hlength
  all_goals try omega
  simp only [List.forall_mem_cons] at h
  simp only [groupsValue, List.foldl_cons, List.foldl_nil]
  omega

/-- Where the listed addresses are. -/
theorem ListedV6.place {value : Nat} (h : ListedV6 value) : value < 2 ^ 48 ∨
    0xfc00 * 2 ^ 112 ≤ value ∧ value < 0xfe00 * 2 ^ 112 ∨ 0xfe80 * 2 ^ 112 ≤ value ∨
    0x2001 * 2 ^ 112 ≤ value ∧ value < 0x2002 * 2 ^ 112 := by
  simp only [ListedV6, v6Blocks, List.exists_mem_cons_iff, List.not_mem_nil, false_and,
    exists_false, or_false, InBlock] at h
  omega

theorem ListedV6.mapped {value : Nat} (h : ListedV6 (0xffff * 2 ^ 32 + value))
    (hvalue : value < 2 ^ 32) : ListedV4 value := by
  rcases h with h | ⟨-, h⟩
  · simp only [v6Blocks, List.exists_mem_cons_iff, List.not_mem_nil, false_and, exists_false,
      or_false, InBlock] at h
    omega
  · rwa [show (0xffff * 2 ^ 32 + value) % 2 ^ 32 = value by omega] at h

/-- The spellings that are recognised. -/
def Spelled (text : JsString) (value : Nat) : Prop :=
  0xfc00 * 2 ^ 112 ≤ value ∨ toLowerCase text = ascii "::" ∨ toLowerCase text = ascii "::1" ∨
    ascii "2001:db8:" <+: toLowerCase text ∨ mappedPrefix <+: toLowerCase text

instance (text : JsString) (value : Nat) : Decidable (Spelled text value) :=
  inferInstanceAs (Decidable (_ ∨ _ ∨ _ ∨ _ ∨ _))

/-- A listed address has one of the prefixes when it is one from `fc00` on. -/
theorem hexPrefix_iff {text : JsString} {groups : List Nat} (hlower : toLowerCase text = text)
    (h : ipv6Groups text = some groups) (hlisted : ListedV6 (groupsValue groups)) :
    (∃ digits ∈ hexPrefixes, digits.map hexDigit <+: text) ↔
      0xfc00 * 2 ^ 112 ≤ groupsValue groups := by
  obtain ⟨hlength, hbound, group, others, rfl, hfront⟩ := ipv6Groups_reads h
  obtain ⟨hge, hlt⟩ := groupsValue_front hlength hbound
  have hplace := hlisted.place
  have hfrom : 0xfc00 * 2 ^ 112 ≤ groupsValue (group :: others) ↔ 0xfc00 ≤ group := by omega
  -- the listed blocks leave these values for the first group
  have hgroups : group = 0 ∨ 0xfc00 ≤ group ∧ group ≤ 0xfdff ∨ 0xfe80 ≤ group ∨ group = 0x2001 := by
    omega
  clear hge hlt hplace
  rw [hfrom]
  -- a text that begins with `::` has no prefix, and its first group is zero
  rcases hfront with ⟨rfl, rest, rfl⟩ | ⟨piece, rest, rfl, hpiece⟩
  · refine iff_of_false ?_ (by decide)
    rintro ⟨front, hmem, hfront⟩
    have hhead : ∀ front ∈ hexPrefixes, ∃ tail, front = 15 :: tail := by
      simp [hexPrefixes]
    obtain ⟨tail, rfl⟩ := hhead front hmem
    rw [List.map_cons, List.cons_prefix_cons] at hfront
    exact absurd hfront.1 (by decide)
  · obtain ⟨digits, hdigits, -, hcount, hgroup⟩ := parseGroup_eq_some hpiece
    obtain ⟨hletters, hdigits⟩ := toLowerCase_of_digits hdigits
    have hpieces : toLowerCase piece = piece := by
      rw [toLowerCase, List.map_append] at hlower
      exact (List.append_inj hlower (List.length_map _)).1
    rw [hpieces] at hletters
    change group = digitsGroup digits at hgroup
    rw [hletters]
    constructor
    · rintro ⟨front, hmem, hfront⟩
      have hdigit : ∀ front ∈ hexPrefixes, ∀ digit ∈ front, digit < 16 := by decide
      have hstart := prefix_of_hexDigits (hdigit front hmem) hdigits hfront
      have hcases := digitsGroup_of_hexPrefix hdigits hcount hmem hstart
      rw [← hgroup] at hcases
      omega
    · intro hlow
      obtain ⟨front, hmem, hfront⟩ :=
        exists_hexPrefix hdigits hcount (by omega) (by omega)
      exact ⟨front, hmem, (hfront.map hexDigit).trans (List.prefix_append _ _)⟩

theorem isPrivateAddress_v6 {text : JsString} {groups : List Nat}
    (h : ipv6Groups text = some groups) (hlisted : ListedV6 (groupsValue groups)) :
    isPrivateAddress text = true ↔ Spelled text (groupsValue groups) := by
  have hv4 : parseV4 text = none := by
    obtain ⟨-, -, group, others, -, hfront⟩ := ipv6Groups_reads h
    have hcolon : colon ∈ text := by
      rcases hfront with ⟨-, rest, rfl⟩ | ⟨piece, rest, rfl, -⟩ <;> simp
    by_contra hsome
    exact notMem_of_parseV4 (Option.isSome_iff_ne_none.mpr hsome) (by decide) (by decide) hcolon
  have hlower : ipv6Groups (toLowerCase text) = some groups := ipv6Groups_toLowerCase text ▸ h
  have hfamily : isIP text = 6 := by
    rw [isIP, hv4, h]
    rfl
  rw [isPrivateAddress, if_neg (by rw [hfamily]; decide), if_neg (not_not.mpr hfamily)]
  dsimp only
  split_ifs with hmapped
  · rw [List.isPrefixOf_iff_prefix] at hmapped
    refine iff_of_true ?_ (Or.inr (Or.inr (Or.inr (Or.inr hmapped))))
    obtain ⟨rest, hrest⟩ := hmapped
    rw [← hrest, List.drop_left]
    rw [← hrest] at hlower
    -- the rest of a mapped address is checked again, as IPv4 or as no address at all
    cases hvalue : parseV4 rest with
    | some value =>
        have hnumber : groupsValue groups = 0xffff * 2 ^ 32 + value := by
          rw [ipv6Groups_mapped_v4 hlower hvalue]
          simp only [groupsValue, List.foldl_cons, List.foldl_nil]
          omega
        rw [hnumber] at hlisted
        exact (isPrivateAddress_v4 hvalue).mpr (hlisted.mapped (parseV4_lt hvalue))
    | none =>
        have hnone : isIP rest = 0 := by
          rw [isIP, hvalue, ipv6Groups_behind_mapped hlower]
          rfl
        rw [isPrivateAddress, if_neg (by rw [hnone]; decide), if_pos (by rw [hnone]; decide)]
  · rw [List.isPrefixOf_iff_prefix] at hmapped
    rw [Bool.or_eq_true, Bool.or_eq_true, decide_eq_true_eq, decide_eq_true_eq, any_v6Prefixes_iff,
      hexPrefix_iff (toLowerCase_idem text) hlower hlisted, Spelled]
    tauto

/-! ### Which addresses are recognised -/

/-- An address of a text is private when it is listed, and an IPv4 address only then. -/
def Recognised (text : JsString) : Prop :=
  (∀ value, parseV4 text = some value → (isPrivateAddress text = true ↔ ListedV4 value)) ∧
    ∀ groups, ipv6Groups text = some groups → ListedV6 (groupsValue groups) →
      isPrivateAddress text = true

/-- A text is read correctly unless it is another spelling of a listed IPv6 address below `fc00::`. -/
theorem isPrivateAddress_recognises (text : JsString) : Recognised text ↔
    ∀ groups, ipv6Groups text = some groups → ListedV6 (groupsValue groups) →
      Spelled text (groupsValue groups) := by
  constructor
  · intro h groups hgroups hlisted
    exact (isPrivateAddress_v6 hgroups hlisted).mp (h.2 groups hgroups hlisted)
  · intro h
    exact ⟨fun value => isPrivateAddress_v4, fun groups hgroups hlisted =>
      (isPrivateAddress_v6 hgroups hlisted).mpr (h groups hgroups hlisted)⟩

/-- The loopback address written with all of its groups is not recognised. -/
theorem isPrivateAddress_loopback : ¬Recognised (ascii "0:0:0:0:0:0:0:1") := by
  intro h
  have hgroups : ipv6Groups (ascii "0:0:0:0:0:0:0:1") = some [0, 0, 0, 0, 0, 0, 0, 1] := by
    decide +kernel
  have hlisted : ListedV6 (groupsValue [0, 0, 0, 0, 0, 0, 0, 1]) := by decide +kernel
  have hspelled := (isPrivateAddress_v6 hgroups hlisted).mp (h.2 _ hgroups hlisted)
  revert hspelled
  decide +kernel

end PocketCoder.Network
