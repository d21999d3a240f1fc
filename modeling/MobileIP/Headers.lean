import MobileIP.Library.LittleEndian

/-! The structures that the elements lay over packet data, as a little-endian
host sees them: a multi-byte field holds the raw memory word, in network order,
and is converted with `ntohs`/`htons` only where the code converts it. -/
namespace MobileIP

open LittleEndian

/-- An IPv4 address as the raw 32-bit word `s_addr`. -/
abbrev IPAddress := UInt32

def htons (x : UInt16) : UInt16 := swap16 x

def ntohs (x : UInt16) : UInt16 := swap16 x

def htonl (x : UInt32) : UInt32 := swap32 x

@[simp] theorem ntohs_htons (x : UInt16) : ntohs (htons x) = x := swap16_swap16 x

structure ClickIp where
  ipV : BitVec 4
  ipHl : BitVec 4
  ipTos : UInt8
  ipLen : UInt16
  ipId : UInt16
  ipOff : UInt16
  ipTtl : UInt8
  ipP : UInt8
  ipSum : UInt16
  ipSrc : IPAddress
  ipDst : IPAddress
  deriving DecidableEq, Repr

def sizeofClickIp : ℕ := 20

def ClickIp.toBytes (h : ClickIp) : Bytes :=
  UInt8.ofNat (h.ipHl.toNat+16*h.ipV.toNat) :: h.ipTos :: (le16 h.ipLen ++ (le16 h.ipId ++
    (le16 h.ipOff ++ (h.ipTtl :: h.ipP :: (le16 h.ipSum ++ (le32 h.ipSrc ++ le32 h.ipDst))))))

/-- The cast `(click_ip*)d`. -/
def ClickIp.ofBytes (d : Bytes) : ClickIp where
  ipV := BitVec.ofNat 4 ((byteAt d 0).toNat/16)
  ipHl := BitVec.ofNat 4 (byteAt d 0).toNat
  ipTos := byteAt d 1
  ipLen := u16At d 2
  ipId := u16At d 4
  ipOff := u16At d 6
  ipTtl := byteAt d 8
  ipP := byteAt d 9
  ipSum := u16At d 10
  ipSrc := u32At d 12
  ipDst := u32At d 16

structure ClickUdp where
  uhSport : UInt16
  uhDport : UInt16
  uhUlen : UInt16
  uhSum : UInt16
  deriving DecidableEq, Repr

def sizeofClickUdp : ℕ := 8

def ClickUdp.toBytes (h : ClickUdp) : Bytes :=
  le16 h.uhSport ++ (le16 h.uhDport ++ (le16 h.uhUlen ++ le16 h.uhSum))

def ClickUdp.ofBytes (d : Bytes) : ClickUdp where
  uhSport := u16At d 0
  uhDport := u16At d 2
  uhUlen := u16At d 4
  uhSum := u16At d 6

/-- The registration request. The structure is not packed, but its natural
alignment leaves no hole: the identification starts at offset 16. -/
structure RegreqH where
  type : UInt8
  flags : UInt8
  lifetime : UInt16
  homeAddress : IPAddress
  homeAgent : IPAddress
  careOfAddress : IPAddress
  identification : UInt64
  deriving DecidableEq, Repr

def sizeofRegreqH : ℕ := 24

def RegreqH.toBytes (h : RegreqH) : Bytes :=
  h.type :: h.flags :: (le16 h.lifetime ++ (le32 h.homeAddress ++ (le32 h.homeAgent ++
    (le32 h.careOfAddress ++ le64 h.identification))))

def RegreqH.ofBytes (d : Bytes) : RegreqH where
  type := byteAt d 0
  flags := byteAt d 1
  lifetime := u16At d 2
  homeAddress := u32At d 4
  homeAgent := u32At d 8
  careOfAddress := u32At d 12
  identification := u64At d 16

/-- The packed registration reply; its identification starts at offset 12. -/
structure RegrepH where
  type : UInt8
  code : UInt8
  lifetime : UInt16
  homeAddress : IPAddress
  homeAgent : IPAddress
  identification : UInt64
  deriving DecidableEq, Repr

def sizeofRegrepH : ℕ := 20

def RegrepH.toBytes (h : RegrepH) : Bytes :=
  h.type :: h.code :: (le16 h.lifetime ++ (le32 h.homeAddress ++ (le32 h.homeAgent ++
    le64 h.identification)))

def RegrepH.ofBytes (d : Bytes) : RegrepH where
  type := byteAt d 0
  code := byteAt d 1
  lifetime := u16At d 2
  homeAddress := u32At d 4
  homeAgent := u32At d 8
  identification := u64At d 12

structure AdvertisementH where
  type : UInt8
  code : UInt8
  checksum : UInt16
  addresses : UInt8
  addrSize : UInt8
  lifetime : UInt16
  address : IPAddress
  preferences : UInt32
  deriving DecidableEq, Repr

def sizeofAdvertisementH : ℕ := 16

def AdvertisementH.toBytes (h : AdvertisementH) : Bytes :=
  h.type :: h.code :: (le16 h.checksum ++ (h.addresses :: h.addrSize :: (le16 h.lifetime ++
    (le32 h.address ++ le32 h.preferences))))

def AdvertisementH.ofBytes (d : Bytes) : AdvertisementH where
  type := byteAt d 0
  code := byteAt d 1
  checksum := u16At d 2
  addresses := byteAt d 4
  addrSize := byteAt d 5
  lifetime := u16At d 6
  address := u32At d 8
  preferences := u32At d 12

structure AdvertisementHE where
  type : UInt8
  length : UInt8
  seqNr : UInt16
  lifetime : UInt16
  flags : UInt8
  reserved : UInt8
  address : IPAddress
  deriving DecidableEq, Repr

def AdvertisementHE.toBytes (h : AdvertisementHE) : Bytes :=
  h.type :: h.length :: (le16 h.seqNr ++ (le16 h.lifetime ++ (h.flags :: h.reserved ::
    le32 h.address)))

def AdvertisementHE.ofBytes (d : Bytes) : AdvertisementHE where
  type := byteAt d 0
  length := byteAt d 1
  seqNr := u16At d 2
  lifetime := u16At d 4
  flags := byteAt d 6
  reserved := byteAt d 7
  address := u32At d 8

structure ClickIcmp where
  icmpType : UInt8
  icmpCode : UInt8
  icmpCksum : UInt16
  padding : UInt32
  deriving DecidableEq, Repr

def sizeofClickIcmp : ℕ := 8

def ClickIcmp.toBytes (h : ClickIcmp) : Bytes :=
  h.icmpType :: h.icmpCode :: (le16 h.icmpCksum ++ le32 h.padding)

def ClickIcmp.ofBytes (d : Bytes) : ClickIcmp where
  icmpType := byteAt d 0
  icmpCode := byteAt d 1
  icmpCksum := u16At d 2
  padding := u32At d 4

def sizeofClickEther : ℕ := 14

@[simp] theorem ClickIp.length_toBytes (h : ClickIp) : h.toBytes.length = 20 := rfl

@[simp] theorem ClickUdp.length_toBytes (h : ClickUdp) : h.toBytes.length = 8 := rfl

@[simp] theorem RegreqH.length_toBytes (h : RegreqH) : h.toBytes.length = 24 := rfl

@[simp] theorem RegrepH.length_toBytes (h : RegrepH) : h.toBytes.length = 20 := rfl

theorem nibbles_split (lo hi : BitVec 4) :
    BitVec.ofNat 4 ((lo.toNat+16*hi.toNat)%256) = lo ∧
    BitVec.ofNat 4 ((lo.toNat+16*hi.toNat)%256/16) = hi := by
  -- version and header length share the first byte of the header
  have hlo : lo.toNat < 16 := lo.isLt
  have hhi : hi.toNat < 16 := hi.isLt
  constructor <;> apply BitVec.eq_of_toNat_eq <;> rw [BitVec.toNat_ofNat] <;> omega

/-- Casting the start of a buffer back gives the structure that was written there. -/
@[simp] theorem ClickIp.ofBytes_toBytes (h : ClickIp) (d : Bytes) :
    ClickIp.ofBytes (h.toBytes ++ d) = h := by
  have hn := nibbles_split h.ipHl h.ipV
  simp [ClickIp.ofBytes, ClickIp.toBytes, hn.1, hn.2]

@[simp] theorem ClickUdp.ofBytes_toBytes (h : ClickUdp) (d : Bytes) :
    ClickUdp.ofBytes (h.toBytes ++ d) = h := by
  simp [ClickUdp.ofBytes, ClickUdp.toBytes]

@[simp] theorem RegreqH.ofBytes_toBytes (h : RegreqH) (d : Bytes) :
    RegreqH.ofBytes (h.toBytes ++ d) = h := by
  simp [RegreqH.ofBytes, RegreqH.toBytes]

@[simp] theorem RegrepH.ofBytes_toBytes (h : RegrepH) (d : Bytes) :
    RegrepH.ofBytes (h.toBytes ++ d) = h := by
  simp [RegrepH.ofBytes, RegrepH.toBytes]

@[simp] theorem AdvertisementH.ofBytes_toBytes (h : AdvertisementH) (d : Bytes) :
    AdvertisementH.ofBytes (h.toBytes ++ d) = h := by
  simp [AdvertisementH.ofBytes, AdvertisementH.toBytes]

@[simp] theorem AdvertisementHE.ofBytes_toBytes (h : AdvertisementHE) (d : Bytes) :
    AdvertisementHE.ofBytes (h.toBytes ++ d) = h := by
  simp [AdvertisementHE.ofBytes, AdvertisementHE.toBytes]

/-- Writing back what was read changes nothing. -/
theorem ClickIp.toBytes_ofBytes (d : Bytes) (h : 20 ≤ d.length) :
    (ClickIp.ofBytes d).toBytes = d.take 20 := by
  have hfirst : UInt8.ofNat ((ClickIp.ofBytes d).ipHl.toNat+16*(ClickIp.ofBytes d).ipV.toNat) =
      byteAt d 0 := by
    have hb : (byteAt d 0).toNat < 256 := UInt8.toNat_lt _
    apply UInt8.toNat_inj.mp
    rw [UInt8.toNat_ofNat']
    change ((byteAt d 0).toNat%16+16*((byteAt d 0).toNat/16%16))%256 = _
    omega
  have hbytes : (ClickIp.ofBytes d).toBytes = (List.range 20).map (byteAt d) := by
    unfold ClickIp.toBytes
    rw [hfirst]
    unfold ClickIp.ofBytes
    dsimp only
    rw [le16_u16At, le16_u16At, le16_u16At, le16_u16At, le32_u32At, le32_u32At]
    rfl
  rw [hbytes]
  apply List.ext_getElem?
  intro i
  by_cases hi : i < 20
  · have hlt : i < d.length := by omega
    rw [List.getElem?_map, List.getElem?_range hi, List.getElem?_take_of_lt hi,
      List.getElem?_eq_getElem hlt, Option.map_some]
    unfold byteAt
    rw [List.getD_eq_getElem?_getD, List.getElem?_eq_getElem hlt, Option.getD_some]
  · rw [List.getElem?_eq_none (by simpa using hi), List.getElem?_eq_none (by
      rw [List.length_take]
      omega)]

theorem ClickIp.toBytes_injective (h h' : ClickIp) (heq : h.toBytes = h'.toBytes) : h = h' := by
  have hback := ClickIp.ofBytes_toBytes h []
  rw [heq] at hback
  exact hback.symm.trans (ClickIp.ofBytes_toBytes h' [])

/-- The header does not depend on what follows its 20 bytes. -/
theorem ClickIp.ofBytes_take (d : Bytes) (n : ℕ) (hn : 20 ≤ n) (hd : 20 ≤ d.length) :
    ClickIp.ofBytes (d.take n) = ClickIp.ofBytes d := by
  have hlen : 20 ≤ (d.take n).length := by
    rw [List.length_take]
    omega
  apply ClickIp.toBytes_injective
  rw [ClickIp.toBytes_ofBytes _ hlen, ClickIp.toBytes_ofBytes d hd, List.take_take,
    Nat.min_eq_left hn]

end MobileIP
