import Ns3Quic.Lib.SeparatedNumbers
import Ns3Quic.Tcp.TcpTracer

/-!
# Names of trace files

The traces of a flow are written to files named after its addresses.  A name is
a sequence of ten decimal numbers, four for each address and one for each port,
with separators between them.
-/

namespace Ns3Quic.Experiment

open Trace Tcp SeparatedNumbers

/-! ## QUIC flows -/

/-- The bytes go through a buffer of `uint8_t`. -/
def getIp2String (ipHostOrder : UInt32) : String :=
  toString ((ipHostOrder >>> 24) &&& 0xff).toUInt8.toNat ++ "." ++
    toString ((ipHostOrder >>> 16) &&& 0xff).toUInt8.toNat ++ "." ++
    toString ((ipHostOrder >>> 8) &&& 0xff).toUInt8.toNat ++ "." ++
    toString ((ipHostOrder >>> 0) &&& 0xff).toUInt8.toNat

def ns3QuicAddressPair2String (addrPair : Ns3QuicAddressPair) : String :=
  getIp2String addrPair.clientIp ++ ":" ++ toString addrPair.clientPort.toNat ++ "_" ++
    getIp2String addrPair.serverIp ++ ":" ++ toString addrPair.serverPort.toNat

/-! ## TCP sessions -/

def convertIpString (ip : UInt32) : String :=
  let a := (ip >>> 24) &&& 0x00FF
  let b := (ip >>> 16) &&& 0x00FF
  let c := (ip >>> 8) &&& 0x00FF
  let d := ip &&& 0x00FF
  let delimiter := "."
  toString a.toNat ++ delimiter ++ toString b.toNat ++ delimiter ++ toString c.toNat ++
    delimiter ++ toString d.toNat

/-- `file_name` of `TcpClient::RegisterTraceFunctions`. -/
def clientFileName (ip1 : UInt32) (port1 : UInt16) (ip2 : UInt32) (port2 : UInt16) : String :=
  let delimiter := "_"
  convertIpString ip1 ++ delimiter ++ toString port1.toNat ++ delimiter ++
    convertIpString ip2 ++ delimiter ++ toString port2.toNat

/-- `file_name` of the constructor of `TcpSink`. -/
def sinkFileName (ip1 : UInt32) (port1 : UInt16) (ip2 : UInt32) (port2 : UInt16) : String :=
  let delimiter := "_"
  convertIpString ip1 ++ delimiter ++ toString port1.toNat ++ delimiter ++
    convertIpString ip2 ++ delimiter ++ toString port2.toNat

/-! ## Addresses and their bytes -/

def ipFields (ip : UInt32) (separator : Char) : List (Nat × Char) :=
  [(ip.toNat / 2 ^ 24 % 256, '.'), (ip.toNat / 2 ^ 16 % 256, '.'), (ip.toNat / 2 ^ 8 % 256, '.'),
    (ip.toNat % 256, separator)]

theorem ipFields_injective {first second : UInt32} {separator : Char}
    (same : ipFields first separator = ipFields second separator) : first = second := by
  have firstFits := first.toNat_lt
  have secondFits := second.toNat_lt
  simp only [ipFields, List.cons.injEq, Prod.mk.injEq, and_true] at same
  rw [← UInt32.toNat_inj]
  omega

theorem toNat_byte (ip shift : UInt32) (small : shift.toNat < 32) :
    ((ip >>> shift) &&& 0xff).toNat = ip.toNat / 2 ^ shift.toNat % 256 := by
  rw [UInt32.toNat_and, UInt32.toNat_shiftRight, Nat.mod_eq_of_lt small,
    Nat.shiftRight_eq_div_pow]
  exact Nat.and_two_pow_sub_one_eq_mod _ 8

theorem toNat_last_byte (ip : UInt32) : (ip &&& 0xff).toNat = ip.toNat % 256 := by
  rw [UInt32.toNat_and]
  exact Nat.and_two_pow_sub_one_eq_mod _ 8

theorem getIp2String_eq (ip : UInt32) : getIp2String ip = convertIpString ip := by
  have first := toNat_byte ip 24 (by decide)
  have second := toNat_byte ip 16 (by decide)
  have third := toNat_byte ip 8 (by decide)
  have fourth := toNat_byte ip 0 (by decide)
  have last := toNat_last_byte ip
  unfold getIp2String convertIpString
  simp only [UInt32.toNat_toUInt8, first, second, third, fourth, last]
  simp

theorem toList_convertIpString (ip : UInt32) (separator : Char) (fields : List (Nat × Char))
    (last : Nat) :
    (convertIpString ip).toList ++ separator :: render fields last =
      render (ipFields ip separator ++ fields) last := by
  have first := toNat_byte ip 24 (by decide)
  have second := toNat_byte ip 16 (by decide)
  have third := toNat_byte ip 8 (by decide)
  have fourth := toNat_last_byte ip
  unfold convertIpString
  simp only [first, second, third, fourth]
  simp [ipFields, render, String.toList_append, Nat.toList_repr]

def nameFields (separator : Char) (ip1 : UInt32) (port1 : UInt16) (ip2 : UInt32) :
    List (Nat × Char) :=
  ipFields ip1 separator ++ (port1.toNat, '_') :: ipFields ip2 separator

theorem nameFields_injective {separator : Char} (noDigit : separator.isDigit = false)
    {ip1 ip1' ip2 ip2' : UInt32} {port1 port1' port2 port2' : UInt16}
    (same : render (nameFields separator ip1 port1 ip2) port2.toNat =
      render (nameFields separator ip1' port1' ip2') port2'.toNat) :
    (ip1 = ip1' ∧ port1 = port1') ∧ ip2 = ip2' ∧ port2 = port2' := by
  have noDigits : ∀ other ∈ (nameFields separator ip1 port1 ip2).map Prod.snd,
      other.isDigit = false := by
    simp [nameFields, ipFields, noDigit]
  have separators : (nameFields separator ip1 port1 ip2).map Prod.snd =
      (nameFields separator ip1' port1' ip2').map Prod.snd := rfl
  obtain ⟨fields, last⟩ := render_injective separators noDigits same
  obtain ⟨first, rest⟩ := List.append_inj fields rfl
  obtain ⟨port, second⟩ := List.cons.inj rest
  exact ⟨⟨ipFields_injective first, UInt16.toNat_inj.mp (Prod.mk.inj port).1⟩,
    ipFields_injective second, UInt16.toNat_inj.mp last⟩

theorem toList_ns3QuicAddressPair2String (pair : Ns3QuicAddressPair) :
    (ns3QuicAddressPair2String pair).toList =
      render (nameFields ':' pair.clientIp pair.clientPort pair.serverIp)
        pair.serverPort.toNat := by
  have server := toList_convertIpString pair.serverIp ':' [] pair.serverPort.toNat
  have client := toList_convertIpString pair.clientIp ':'
    ((pair.clientPort.toNat, '_') :: ipFields pair.serverIp ':') pair.serverPort.toNat
  rw [List.append_nil] at server
  rw [nameFields, ← client, render, ← server]
  simp [ns3QuicAddressPair2String, getIp2String_eq, render]

theorem toList_clientFileName (ip1 : UInt32) (port1 : UInt16) (ip2 : UInt32) (port2 : UInt16) :
    (clientFileName ip1 port1 ip2 port2).toList =
      render (nameFields '_' ip1 port1 ip2) port2.toNat := by
  have server := toList_convertIpString ip2 '_' [] port2.toNat
  have client := toList_convertIpString ip1 '_'
    ((port1.toNat, '_') :: ipFields ip2 '_') port2.toNat
  rw [List.append_nil] at server
  rw [nameFields, ← client, render, ← server]
  simp [clientFileName, render]

/-- No two flows share a file: in any folder and for any kind of trace, the name
of a file determines the addresses and ports of a QUIC flow, and those of a TCP
session, for which the client and the sink build the same name. -/
theorem trace_files_distinct (folder kind : String) :
    (Function.Injective fun addrPair =>
      folder ++ ns3QuicAddressPair2String addrPair ++ kind) ∧
    (Function.Injective fun key : TcpSessionKey =>
      folder ++ clientFileName key.ip1 key.port1 key.ip2 key.port2 ++ kind) ∧
    ∀ ip1 port1 ip2 port2,
      sinkFileName ip1 port1 ip2 port2 = clientFileName ip1 port1 ip2 port2 := by
  refine ⟨?_, ?_, fun _ _ _ _ => rfl⟩
  · intro first second same
    have names := (String.append_right_inj folder).mp ((String.append_left_inj kind).mp same)
    have lists := congrArg String.toList names
    rw [toList_ns3QuicAddressPair2String, toList_ns3QuicAddressPair2String] at lists
    obtain ⟨⟨clientIp, clientPort⟩, serverIp, serverPort⟩ :=
      nameFields_injective (by decide) lists
    cases first
    cases second
    rw [Ns3QuicAddressPair.mk.injEq]
    exact ⟨clientIp, serverIp, clientPort, serverPort⟩
  · intro first second same
    have names := (String.append_right_inj folder).mp ((String.append_left_inj kind).mp same)
    have lists := congrArg String.toList names
    rw [toList_clientFileName, toList_clientFileName] at lists
    obtain ⟨⟨ip1, port1⟩, ip2, port2⟩ := nameFields_injective (by decide) lists
    cases first
    cases second
    rw [TcpSessionKey.mk.injEq]
    exact ⟨ip1, ip2, port1, port2⟩

example : ns3QuicAddressPair2String ⟨0x0A000001, 0x0A000102, 49152, 1234⟩ =
    "10.0.0.1:49152_10.0.1.2:1234" := by
  decide

end Ns3Quic.Experiment
