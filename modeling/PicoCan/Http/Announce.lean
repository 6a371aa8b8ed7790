import PicoCan.Calls.Dns
import PicoCan.Calls.Stores
import PicoCan.Http.Headers

/-!
# The mDNS announcement

`build_mdns_http_announcement` and its helpers, on a buffer that records every store. The
length of a record is stored once its data has been written, at an offset taken before its
header; the size of the buffer is never looked at.
-/

namespace PicoCan.Http

open Calls

/-- `CONFIG_NET_HOSTNAME`, one label. -/
structure Hostname where
  text : Bytes
  filled : text ≠ []
  short : text.length ≤ 63
  free : 0 ∉ text

/-- `buf` and `*offset`. -/
structure Packet where
  buf : Cells
  offset : Nat

/-! ## The helpers -/

/-- `buf[(*offset)++] = value`. -/
def putByte (value : UInt8) (p : Packet) : Packet where
  buf := p.buf.store p.offset value
  offset := p.offset + 1

def putU16 (value : UInt16) (p : Packet) : Packet :=
  let p := putByte (value >>> 8).toUInt8 p
  putByte (value &&& 0xff).toUInt8 p

def putU32 (value : UInt32) (p : Packet) : Packet :=
  let p := putByte (value >>> 24).toUInt8 p
  let p := putByte ((value >>> 16) &&& 0xff).toUInt8 p
  let p := putByte ((value >>> 8) &&& 0xff).toUInt8 p
  putByte (value &&& 0xff).toUInt8 p

def putBytes (data : Bytes) (p : Packet) : Packet := data.foldl (fun p value => putByte value p) p

def putLabel (label : Bytes) (p : Packet) : Packet :=
  let len := (cString label).length
  let p := putByte len.toUInt8 p
  putBytes (label.take len) p

def putHostName (host : Hostname) (p : Packet) : Packet :=
  let p := putLabel host.text p
  let p := putLabel (lit "local") p
  putByte 0 p

def putHttpServiceName (p : Packet) : Packet :=
  let p := putLabel (lit "_http") p
  let p := putLabel (lit "_tcp") p
  let p := putLabel (lit "local") p
  putByte 0 p

def putHttpInstanceName (host : Hostname) (p : Packet) : Packet :=
  let p := putLabel host.text p
  let p := putLabel (lit "_http") p
  let p := putLabel (lit "_tcp") p
  let p := putLabel (lit "local") p
  putByte 0 p

def putRrHeader (type class_ : UInt16) (ttl : UInt32) (rdlength : UInt16) (p : Packet) : Packet :=
  let p := putU16 type p
  let p := putU16 class_ p
  let p := putU32 ttl p
  putU16 rdlength p

/-- `sys_put_be16` of the kernel. -/
def sysPutBe16 (value : UInt16) (i : Nat) (p : Packet) : Packet :=
  { p with buf := (p.buf.store i (value >>> 8).toUInt8).store (i + 1) value.toUInt8 }

/-- A record behind its name: the header, the data, and the length into the header. The lines
stand three times in `build_mdns_http_announcement`. -/
def putRecord (type class_ : UInt16) (ttl : UInt32) (rdata : Packet → Packet) (p : Packet) :
    Packet :=
  let rdlengthOffset := p.offset + 8
  let p := putRrHeader type class_ ttl 0 p
  let rdataStart := p.offset
  let p := rdata p
  sysPutBe16 (p.offset - rdataStart).toUInt16 rdlengthOffset p

/-! ## The builder -/

def dnsTypeA : UInt16 := 1
def dnsTypePtr : UInt16 := 12
def dnsTypeTxt : UInt16 := 16
def dnsTypeSrv : UInt16 := 33
def dnsClassIn : UInt16 := 1
def dnsClassCacheFlush : UInt16 := 0x8000
def mdnsPtrTtl : UInt32 := 4500
def mdnsHostTtl : UInt32 := 120
def httpPort : UInt16 := 80

def httpTxt : Bytes := 6 :: lit "path=/"

/-- What the buffer holds afterwards, and the length. -/
def buildMdnsHttpAnnouncement (host : Hostname) (buf : Cells) (_bufSize : Nat) (addr : Dns.Ipv4) :
    Cells × Nat :=
  let p : Packet := { buf, offset := 0 }
  let p := putU16 0 p
  let p := putU16 0x8400 p
  let p := putU16 0 p
  let p := putU16 4 p
  let p := putU16 0 p
  let p := putU16 0 p
  let p := putHttpServiceName p
  let p := putRecord dnsTypePtr dnsClassIn mdnsPtrTtl (putHttpInstanceName host) p
  let p := putHttpInstanceName host p
  let p := putRecord dnsTypeTxt (dnsClassIn ||| dnsClassCacheFlush) mdnsPtrTtl (putBytes httpTxt) p
  let p := putHttpInstanceName host p
  let p := putRecord dnsTypeSrv (dnsClassIn ||| dnsClassCacheFlush) mdnsHostTtl (fun p =>
    putHostName host (putU16 httpPort (putU16 0 (putU16 0 p)))) p
  let p := putHostName host p
  let p := putRrHeader dnsTypeA (dnsClassIn ||| dnsClassCacheFlush) mdnsHostTtl 4 p
  let p := putBytes [addr.a, addr.b, addr.c, addr.d] p
  (p.buf, p.offset)

/-- `sizeof(packet)` in `mdns_announce_thread`. -/
def packetMax : Nat := 384

/-! ## What the helpers write -/

/-- A helper writes some bytes at the offset and moves it behind them. -/
structure Appends (put : Packet → Packet) (bytes : Bytes) : Prop where
  offset : ∀ p, (put p).offset = p.offset + bytes.length
  wrote : ∀ p, Cells.Wrote p.offset bytes p.buf (put p).buf

theorem Appends.trans {put put' : Packet → Packet} {front rest : Bytes} (first : Appends put front)
    (next : Appends put' rest) : Appends (fun p => put' (put p)) (front ++ rest) := by
  refine ⟨fun p => ?_, fun p => ?_⟩
  · rw [next.offset, first.offset, List.length_append, Nat.add_assoc]
  · have behind := next.wrote (put p)
    rw [first.offset] at behind
    exact (first.wrote p).append behind

theorem putByte_appends (value : UInt8) : Appends (putByte value) [value] :=
  ⟨fun _ => rfl, fun p => .store p.offset value p.buf⟩

theorem putBytes_appends (data : Bytes) : Appends (putBytes data) data := by
  induction data with
  | nil => exact ⟨fun _ => rfl, fun p => .nil p.offset p.buf⟩
  | cons value data ih => exact (putByte_appends value).trans ih

/-- The bytes of a 16-bit number as the helpers take them. -/
theorem be16_eq (value : UInt16) :
    Dns.be16 value = [(value >>> 8).toUInt8, value.toUInt8] := by
  have high : (value >>> 8).toUInt8 = (value.toNat / 256).toUInt8 := by
    apply UInt8.toNat_inj.mp
    rw [UInt16.toNat_toUInt8, UInt16.toNat_shiftRight, Nat.shiftRight_eq_div_pow, Nat.toUInt8,
      UInt8.toNat_ofNat']
    rfl
  have low : value.toUInt8 = value.toNat.toUInt8 := by
    apply UInt8.toNat_inj.mp
    rw [UInt16.toNat_toUInt8, Nat.toUInt8, UInt8.toNat_ofNat']
  rw [high, low]
  rfl

theorem putU16_appends (value : UInt16) : Appends (putU16 value) (Dns.be16 value) := by
  have low : (value &&& 0xff).toUInt8 = value.toUInt8 := by
    apply UInt8.toNat_inj.mp
    have mask : value.toNat &&& 255 = value.toNat % 256 := Nat.and_two_pow_sub_one_eq_mod _ 8
    rw [UInt16.toNat_toUInt8, UInt16.toNat_toUInt8, UInt16.toNat_and]
    show (value.toNat &&& 255) % 256 = _
    rw [mask, Nat.mod_mod]
  rw [be16_eq, ← low]
  exact (putByte_appends _).trans (putByte_appends _)

theorem putU32_appends (value : UInt32) : Appends (putU32 value) (Dns.be32 value) := by
  have masked (n : UInt32) : (n &&& 0xff).toUInt8 = n.toNat.toUInt8 := by
    apply UInt8.toNat_inj.mp
    have mask : n.toNat &&& 255 = n.toNat % 256 := Nat.and_two_pow_sub_one_eq_mod _ 8
    rw [UInt32.toNat_toUInt8, UInt32.toNat_and, Nat.toUInt8, UInt8.toNat_ofNat']
    show (n.toNat &&& 255) % 256 = _
    rw [mask, Nat.mod_mod]
  have first : (value >>> 24).toUInt8 = (value.toNat / 16777216).toUInt8 := by
    apply UInt8.toNat_inj.mp
    rw [UInt32.toNat_toUInt8, UInt32.toNat_shiftRight, Nat.shiftRight_eq_div_pow, Nat.toUInt8,
      UInt8.toNat_ofNat']
    rfl
  have bytes : Dns.be32 value = [(value >>> 24).toUInt8, ((value >>> 16) &&& 0xff).toUInt8,
      ((value >>> 8) &&& 0xff).toUInt8, (value &&& 0xff).toUInt8] := by
    rw [masked, masked, masked, first, UInt32.toNat_shiftRight, UInt32.toNat_shiftRight,
      Nat.shiftRight_eq_div_pow, Nat.shiftRight_eq_div_pow]
    rfl
  rw [bytes]
  exact (((putByte_appends _).trans (putByte_appends _)).trans (putByte_appends _)).trans
    (putByte_appends _)

/-- A C string is its label. -/
theorem putLabel_appends {label : Bytes} (free : 0 ∉ label) :
    Appends (putLabel label) (Dns.counted label) := by
  have all : cString label = label := by
    have text := cString_text free []
    rw [List.append_nil] at text
    exact text.trans (List.append_nil label)
  have same : putLabel label = fun p => putBytes label (putByte label.length.toUInt8 p) := by
    funext p
    rw [putLabel, all, List.take_length]
  rw [same]
  exact (putByte_appends _).trans (putBytes_appends label)

theorem putRrHeader_appends (type class_ : UInt16) (ttl : UInt32) (rdlength : UInt16) :
    Appends (putRrHeader type class_ ttl rdlength)
      (Dns.be16 type ++ Dns.be16 class_ ++ Dns.be32 ttl ++ Dns.be16 rdlength) :=
  (((putU16_appends type).trans (putU16_appends class_)).trans (putU32_appends ttl)).trans
    (putU16_appends rdlength)

/-- The length that is stored last is that of the data behind it. -/
theorem putRecord_appends (type class_ : UInt16) (ttl : UInt32) {rdata : Packet → Packet}
    {data : Bytes} (puts : Appends rdata data) :
    Appends (putRecord type class_ ttl rdata)
      (Dns.be16 type ++ Dns.be16 class_ ++ Dns.be32 ttl ++ Dns.be16 data.length.toUInt16 ++
        data) := by
  obtain ⟨header, is⟩ : ∃ header, header = Dns.be16 type ++ Dns.be16 class_ ++ Dns.be32 ttl :=
    ⟨_, rfl⟩
  have eight : header.length = 8 := by rw [is]; rfl
  have both := (putRrHeader_appends type class_ ttl 0).trans puts
  rw [← is] at both ⊢
  have behind (p : Packet) : (putRrHeader type class_ ttl 0 p).offset = p.offset + 10 :=
    (putRrHeader_appends type class_ ttl 0).offset p
  refine ⟨fun p => ?_, fun p => ?_⟩
  · show (rdata (putRrHeader type class_ ttl 0 p)).offset = _
    rw [both.offset p]
    simp only [List.length_append, Dns.be16, List.length_cons]
  · have written := both.wrote p
    -- the zeroes of the header are replaced, first the upper one
    have zeroes : header ++ Dns.be16 0 ++ data = header ++ 0 :: (0 :: data) := by
      rw [List.append_assoc]
      rfl
    rw [zeroes] at written
    have upper := written.replace (data.length.toUInt16 >>> 8).toUInt8
    rw [show header ++ (data.length.toUInt16 >>> 8).toUInt8 :: 0 :: data =
      (header ++ [(data.length.toUInt16 >>> 8).toUInt8]) ++ 0 :: data by simp] at upper
    have lower := upper.replace data.length.toUInt16.toUInt8
    have length : (rdata (putRrHeader type class_ ttl 0 p)).offset -
        (putRrHeader type class_ ttl 0 p).offset = data.length := by
      rw [puts.offset]
      omega
    rw [be16_eq]
    simp only [putRecord, sysPutBe16, length]
    rw [List.length_append, eight, List.length_singleton] at lower
    have bytes : header ++ [(data.length.toUInt16 >>> 8).toUInt8, data.length.toUInt16.toUInt8] ++
        data = (header ++ [(data.length.toUInt16 >>> 8).toUInt8]) ++
          data.length.toUInt16.toUInt8 :: data := by simp
    rw [bytes]
    exact lower

/-! ## What is announced -/

def serviceName : Dns.Name := [lit "_http", lit "_tcp", lit "local"]

def instanceName (host : Hostname) : Dns.Name := host.text :: serviceName

def hostName (host : Hostname) : Dns.Name := [host.text, lit "local"]

/-- The message that is announced. -/
def announcement (host : Hostname) (addr : Dns.Ipv4) : Dns.Message where
  id := 0
  flags := 0x8400
  answers := [
    { name := serviceName, cls := 1, ttl := 4500, data := .ptr (instanceName host) },
    { name := instanceName host, cls := 0x8001, ttl := 4500, data := .txt [lit "path=/"] },
    { name := instanceName host, cls := 0x8001, ttl := 120, data := .srv 0 0 80 (hostName host) },
    { name := hostName host, cls := 0x8001, ttl := 120, data := .a addr }]

theorem putHttpServiceName_appends : Appends putHttpServiceName (Dns.encodeName serviceName) :=
  (((putLabel_appends (by decide)).trans (putLabel_appends (by decide))).trans
    (putLabel_appends (by decide))).trans (putByte_appends 0)

theorem putHttpInstanceName_appends (host : Hostname) :
    Appends (putHttpInstanceName host) (Dns.encodeName (instanceName host)) := by
  have puts := ((((putLabel_appends host.free).trans
    (putLabel_appends (show 0 ∉ lit "_http" by decide))).trans
    (putLabel_appends (show 0 ∉ lit "_tcp" by decide))).trans
    (putLabel_appends (show 0 ∉ lit "local" by decide))).trans (putByte_appends 0)
  have bytes : Dns.encodeName (instanceName host) = Dns.counted host.text ++
      Dns.counted (lit "_http") ++ Dns.counted (lit "_tcp") ++ Dns.counted (lit "local") ++
        [0] := by
    simp only [Dns.encodeName, instanceName, serviceName, List.flatMap_cons, List.flatMap_nil,
      List.append_assoc, List.append_nil]
  rw [bytes]
  exact puts

theorem putHostName_appends (host : Hostname) :
    Appends (putHostName host) (Dns.encodeName (hostName host)) := by
  have puts := ((putLabel_appends host.free).trans
    (putLabel_appends (show 0 ∉ lit "local" by decide))).trans (putByte_appends 0)
  have bytes : Dns.encodeName (hostName host) =
      Dns.counted host.text ++ Dns.counted (lit "local") ++ [0] := by
    simp only [Dns.encodeName, hostName, List.flatMap_cons, List.flatMap_nil, List.append_assoc,
      List.append_nil]
  rw [bytes]
  exact puts

/-- A record behind its name is that record. -/
theorem putRecord_record {name : Dns.Name} {put rdata : Packet → Packet}
    (named : Appends put (Dns.encodeName name)) (cls : UInt16) (ttl : UInt32) {data : Dns.RData}
    (puts : Appends rdata (Dns.encodeData data)) :
    Appends (fun p => putRecord data.type cls ttl rdata (put p))
      (Dns.encodeRecord { name, cls, ttl, data }) := by
  have both := named.trans (putRecord_appends data.type cls ttl puts)
  simp only [← List.append_assoc] at both
  exact both

/-- Everything that is written is the message. -/
theorem buildMdnsHttpAnnouncement_wrote (host : Hostname) (buf : Cells) (bufSize : Nat)
    (addr : Dns.Ipv4) :
    (buildMdnsHttpAnnouncement host buf bufSize addr).2 =
        (Dns.encode (announcement host addr)).length ∧
      Cells.Wrote 0 (Dns.encode (announcement host addr)) buf
        (buildMdnsHttpAnnouncement host buf bufSize addr).1 := by
  have header := (((((putU16_appends 0).trans (putU16_appends 0x8400)).trans
    (putU16_appends 0)).trans (putU16_appends 4)).trans (putU16_appends 0)).trans (putU16_appends 0)
  have ptr : Appends _ (Dns.encodeRecord ⟨serviceName, 1, 4500, .ptr (instanceName host)⟩) :=
    putRecord_record putHttpServiceName_appends dnsClassIn mdnsPtrTtl
      (putHttpInstanceName_appends host)
  have txt : Appends _ (Dns.encodeRecord ⟨instanceName host, 0x8001, 4500, .txt [lit "path=/"]⟩) :=
    putRecord_record (putHttpInstanceName_appends host)
      (dnsClassIn ||| dnsClassCacheFlush) mdnsPtrTtl (putBytes_appends httpTxt)
  have srv : Appends _
      (Dns.encodeRecord ⟨instanceName host, 0x8001, 120, .srv 0 0 80 (hostName host)⟩) :=
    putRecord_record (putHttpInstanceName_appends host)
      (dnsClassIn ||| dnsClassCacheFlush) mdnsHostTtl
      ((((putU16_appends 0).trans (putU16_appends 0)).trans (putU16_appends httpPort)).trans
        (putHostName_appends host))
  -- the length of an address is known before it is written
  have a := ((putHostName_appends host).trans (putRrHeader_appends dnsTypeA
    (dnsClassIn ||| dnsClassCacheFlush) mdnsHostTtl 4)).trans
    (putBytes_appends [addr.a, addr.b, addr.c, addr.d])
  have last : Dns.encodeRecord ⟨hostName host, 0x8001, 120, .a addr⟩ =
      Dns.encodeName (hostName host) ++
        (Dns.be16 dnsTypeA ++ Dns.be16 (dnsClassIn ||| dnsClassCacheFlush) ++
        Dns.be32 mdnsHostTtl ++ Dns.be16 4) ++ [addr.a, addr.b, addr.c, addr.d] := by
    simp only [← List.append_assoc]
    rfl
  rw [← last] at a
  have all := (((header.trans ptr).trans txt).trans srv).trans a
  have bytes : Dns.encode (announcement host addr) = Dns.be16 0 ++ Dns.be16 0x8400 ++ Dns.be16 0 ++
      Dns.be16 4 ++ Dns.be16 0 ++ Dns.be16 0 ++
      Dns.encodeRecord ⟨serviceName, 1, 4500, .ptr (instanceName host)⟩ ++
      Dns.encodeRecord ⟨instanceName host, 0x8001, 4500, .txt [lit "path=/"]⟩ ++
      Dns.encodeRecord ⟨instanceName host, 0x8001, 120, .srv 0 0 80 (hostName host)⟩ ++
      Dns.encodeRecord ⟨hostName host, 0x8001, 120, .a addr⟩ := by
    simp only [Dns.encode, announcement, List.flatMap_cons, List.flatMap_nil, List.append_nil,
      List.append_assoc]
    rfl
  rw [bytes]
  have offset := all.offset { buf, offset := 0 }
  rw [Nat.zero_add] at offset
  exact ⟨offset, all.wrote { buf, offset := 0 }⟩

/-! ## Its length -/

theorem instanceName_length (host : Hostname) :
    (Dns.encodeName (instanceName host)).length = host.text.length + 19 := by
  have service : (Dns.encodeName serviceName).length = 18 := by decide
  show (Dns.counted host.text ++ serviceName.flatMap Dns.counted ++ [0]).length = _
  rw [List.append_assoc, List.length_append, Dns.counted, List.length_cons]
  show host.text.length + 1 + (Dns.encodeName serviceName).length = _
  omega

theorem hostName_length (host : Hostname) :
    (Dns.encodeName (hostName host)).length = host.text.length + 8 := by
  have domain : (Dns.counted (lit "local") ++ [] ++ [0]).length = 7 := by decide
  show (Dns.counted host.text ++ (Dns.counted (lit "local") ++ []) ++ [0]).length = _
  rw [List.append_assoc, List.length_append, Dns.counted, List.length_cons]
  omega

theorem encodeRecord_length (record : Dns.Record) :
    (Dns.encodeRecord record).length =
      (Dns.encodeName record.name).length + 10 + (Dns.encodeData record.data).length := by
  simp only [Dns.encodeRecord, List.length_append, Dns.be16, Dns.be32, List.length_cons,
    List.length_nil]

/-- The host name stands in the packet five times. -/
theorem announcement_length (host : Hostname) (addr : Dns.Ipv4) :
    (Dns.encode (announcement host addr)).length = 5 * host.text.length + 160 := by
  have service : (Dns.encodeName serviceName).length = 18 := by decide
  have ptr : (Dns.encodeData (.ptr (instanceName host))).length = host.text.length + 19 :=
    instanceName_length host
  have txt : (Dns.encodeData (.txt [lit "path=/"])).length = 7 := by decide
  have srv : (Dns.encodeData (.srv 0 0 80 (hostName host))).length = host.text.length + 14 := by
    show (Dns.be16 0 ++ Dns.be16 0 ++ Dns.be16 80 ++ Dns.encodeName (hostName host)).length = _
    rw [List.length_append, hostName_length]
    show 6 + (host.text.length + 8) = _
    omega
  have a : (Dns.encodeData (.a addr)).length = 4 := rfl
  simp only [Dns.encode, announcement, List.length_append, List.flatMap_cons, List.flatMap_nil,
    encodeRecord_length, Dns.be16, List.length_cons, List.length_nil]
  rw [service, ptr, txt, srv, a, instanceName_length, hostName_length]
  omega

/-! ## The message -/

/-- Every host name can be announced. -/
theorem announcement_valid (host : Hostname) (addr : Dns.Ipv4) :
    Dns.Valid (announcement host addr) := by
  have short := host.short
  have whole := announcement_length host addr
  have labels : ∀ label ∈ serviceName, label ≠ [] ∧ label.length ≤ 63 := by decide
  have service : Dns.ValidName serviceName := ⟨labels, by decide⟩
  have named : Dns.ValidName (instanceName host) := by
    refine ⟨fun label member => ?_, ?_⟩
    · rcases List.mem_cons.mp member with rfl | later
      · exact ⟨host.filled, host.short⟩
      · exact labels label later
    · rw [instanceName_length]
      omega
  have target : Dns.ValidName (hostName host) := by
    refine ⟨fun label member => ?_, ?_⟩
    · rcases List.mem_cons.mp member with rfl | later
      · exact ⟨host.filled, host.short⟩
      · rw [List.mem_singleton.mp later]
        decide
    · rw [hostName_length]
      omega
  -- no record is longer than the message
  have bounded : ∀ record ∈ (announcement host addr).answers,
      (Dns.encodeData record.data).length < 2 ^ 16 := by
    intro record member
    obtain ⟨before, behind, split⟩ := Dns.encode_answer member
    have parts := congrArg List.length split
    rw [List.length_append, List.length_append, encodeRecord_length] at parts
    omega
  have answers : ∀ record ∈ (announcement host addr).answers,
      Dns.ValidName record.name ∧ Dns.ValidData record.data := by
    intro record member
    simp only [announcement, List.mem_cons, List.not_mem_nil, or_false] at member
    rcases member with rfl | rfl | rfl | rfl
    · exact ⟨service, named⟩
    · exact ⟨named, by decide, by decide⟩
    · exact ⟨named, target⟩
    · exact ⟨target, trivial⟩
  have nothing {entries : List Dns.Record} (empty : entries = []) :
      ∀ record ∈ entries, Dns.ValidRecord record := by
    intro record member
    rw [empty] at member
    cases member
  exact {
    questions := fun question member => by cases member
    answers := fun record member =>
      ⟨(answers record member).1, (answers record member).2, bounded record member⟩
    authorities := nothing rfl
    additionals := nothing rfl
    counts := by
      show 0 < 2 ^ 16 ∧ 4 < 2 ^ 16 ∧ 0 < 2 ^ 16 ∧ 0 < 2 ^ 16
      decide }

/-- Somewhere in the packet is the record, and its length field counts the bytes of data behind
it. -/
def Carries (packet : Bytes) (record : Dns.Record) : Prop :=
  ∃ before behind rdlength, rdlength.toNat = (Dns.encodeData record.data).length ∧
    packet = before ++ (Dns.encodeName record.name ++ Dns.be16 record.data.type ++
      Dns.be16 record.cls ++ Dns.be32 record.ttl ++ Dns.be16 rdlength ++
      Dns.encodeData record.data) ++ behind

/-- Whatever the buffer held, it then holds the announcement, which a decoder takes apart again;
the length that is returned is that of what has been written, and nothing is written beyond. -/
theorem announcement_decodes (host : Hostname) (addr : Dns.Ipv4) (buf : Nat → UInt8)
    (bufSize : Nat) :
    Dns.decode ((buildMdnsHttpAnnouncement host { byte := buf } bufSize addr).1.slice 0
        (buildMdnsHttpAnnouncement host { byte := buf } bufSize addr).2) =
      some (announcement host addr) ∧
    (∀ record ∈ (announcement host addr).answers,
      Carries ((buildMdnsHttpAnnouncement host { byte := buf } bufSize addr).1.slice 0
        (buildMdnsHttpAnnouncement host { byte := buf } bufSize addr).2) record) ∧
    ∀ i, i ∈ (buildMdnsHttpAnnouncement host { byte := buf } bufSize addr).1.stores ↔
      i < (buildMdnsHttpAnnouncement host { byte := buf } bufSize addr).2 := by
  obtain ⟨length, wrote⟩ := buildMdnsHttpAnnouncement_wrote host { byte := buf } bufSize addr
  have valid := announcement_valid host addr
  rw [length, wrote.slice]
  refine ⟨Dns.decode_encode valid, fun record member => ?_, fun i => ?_⟩
  · obtain ⟨before, behind, split⟩ := Dns.encode_answer member
    exact ⟨before, behind, (Dns.encodeData record.data).length.toUInt16,
      Dns.toUInt16_toNat (valid.answers record member).length, split⟩
  · rw [wrote.stores, Nat.zero_add]
    exact ⟨fun touched => touched.elim (fun none => by cases none) And.right,
      fun inside => .inr ⟨Nat.zero_le i, inside⟩⟩

/-! ## The size of the packet -/

/-- Everything that is written is within the buffer of `mdns_announce_thread`, and so is what is
sent. -/
def FitsPacket (host : Hostname) (addr : Dns.Ipv4) (buf : Nat → UInt8) : Prop :=
  (∀ i ∈ (buildMdnsHttpAnnouncement host { byte := buf } packetMax addr).1.stores, i < packetMax) ∧
    (buildMdnsHttpAnnouncement host { byte := buf } packetMax addr).2 ≤ packetMax

/-- What does not fit is written all the same. -/
theorem not_fitsPacket {host : Hostname} (long : 44 < host.text.length) (addr : Dns.Ipv4)
    (buf : Nat → UInt8) : ¬ FitsPacket host addr buf := by
  intro fits
  obtain ⟨length, -⟩ := buildMdnsHttpAnnouncement_wrote host { byte := buf } packetMax addr
  have sent := fits.2
  rw [length, announcement_length, packetMax] at sent
  omega

/-- The buffer is large enough for the host names of at most 44 bytes, and for no others. -/
theorem fitsPacket_iff (host : Hostname) (addr : Dns.Ipv4) (buf : Nat → UInt8) :
    FitsPacket host addr buf ↔ host.text.length ≤ 44 := by
  constructor
  · intro fits
    exact Nat.le_of_not_lt fun long => not_fitsPacket long addr buf fits
  · intro short
    obtain ⟨length, wrote⟩ := buildMdnsHttpAnnouncement_wrote host { byte := buf } packetMax addr
    have whole := announcement_length host addr
    refine ⟨fun i touched => ?_, ?_⟩
    · rcases (wrote.stores i).mp touched with none | ⟨-, inside⟩
      · cases none
      · unfold packetMax
        omega
    · rw [length, whole, packetMax]
      omega

/-- A host name of 45 letters. -/
def longHostname : Hostname :=
  ⟨List.replicate 45 97, by decide, by decide, by decide⟩

theorem longHostname_overflows : ¬ FitsPacket longHostname ⟨169, 254, 1, 1⟩ fun _ => 0 :=
  not_fitsPacket (by decide) _ _

end PicoCan.Http
