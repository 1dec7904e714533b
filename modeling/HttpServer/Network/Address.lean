import HttpServer.Network.Ipv6

/-!
# Addresses of hosts

A host has an address of four or of sixteen bytes. One of sixteen bytes may come with a zone, the
number of the interface behind which it is meant; no zone is zone 0.

The address of a socket is an address with a port. Because an IPv6 address has colons of its own, it
stands in brackets there.
-/

namespace HttpServer

/-- An address of a host. -/
inductive Address where
  | v4 (ip : Ipv4)
  | v6 (ip : Ipv6) (zone : UInt32)
deriving DecidableEq, Repr

namespace Address

/-- The text of an address, without its zone. -/
def toText : Address → String
  | v4 ip => ip.toText
  | v6 ip _ => ip.toText

/-- An address as it stands before a port. -/
def hostText : Address → String
  | v4 ip => ip.toText
  | v6 ip zone =>
    let shown := if zone = 0 then "" else "%" ++ toString zone.toNat
    "[" ++ ip.toText ++ shown ++ "]"

/-- The number of a zone. -/
def zone? (ds : List Char) : Option UInt32 :=
  (Numeral.below? 0x100000000 10 ds).map UInt32.ofNat

/-- An IPv6 address, behind which a zone may stand after a percent sign. -/
def zoned? (zoneOf : Ipv6 → List Char → Option UInt32) (text : List Char) : Option Address := do
  let ip ← Ipv6.ofText? (text.takeWhile (· != '%'))
  match text.dropWhile (· != '%') with
  | [] => some (v6 ip 0)
  | _ :: behind => (zoneOf ip behind).map (v6 ip)

/-- An IPv6 address in brackets. -/
def ofBracketed? : List Char → Option Address
  | '[' :: rest =>
    if rest.getLast? = some ']' then zoned? (fun _ => zone?) rest.dropLast else none
  | _ => none

/-- An address without brackets. For an address that needs one, an interface may stand under its
name where the zone is expected. -/
def ofBare? (interface : List Char → Option UInt32) (text : List Char) : Option Address :=
  ((Ipv4.ofText? text).map v4).or
    (zoned?
      (fun ip zone => (if ip.needsInterface then interface zone else none).or (zone? zone))
      text)

end Address

end HttpServer
