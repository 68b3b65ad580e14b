import Mathlib.Data.Vector.Basic

/-! # Types shared by the kernel programs and userspace

`bandix-plus-common`: the keys and values of the kernel maps and the header of a captured DNS
packet. -/

namespace BandixPlus.Common

/-- A MAC address, `[u8; 6]`. -/
abbrev Mac := Vector UInt8 6

/-- `IpVersion as u8`. -/
def IpVersion.v4 : UInt8 := 4
def IpVersion.v6 : UInt8 := 6

/-- `TrafficDirection as u8`. -/
def TrafficDirection.ingress : UInt8 := 1
def TrafficDirection.egress : UInt8 := 2

structure InterfaceTrafficKey where
  ifindex : UInt32
  ipVersion : UInt8
  direction : UInt8
  deriving DecidableEq

structure DeviceTrafficKey where
  ifindex : UInt32
  mac : Mac
  ipVersion : UInt8
  direction : UInt8
  deriving DecidableEq

structure TrafficValue where
  packets : UInt64
  bytes : UInt64
  deriving DecidableEq

/-- An address as the kernel stores it: four 32-bit words, IPv4 in the first. -/
abbrev IpWords := Vector UInt32 4

structure EcmTrafficKey where
  ip : IpWords
  ipVersion : UInt8
  direction : UInt8
  deriving DecidableEq

structure RouterIpKey where
  ip : IpWords
  ipVersion : UInt8
  deriving DecidableEq

structure DnsPacketHeader where
  timestampNs : UInt64
  ifindex : UInt32
  capturedLen : UInt32
  ipOffset : UInt16
  ipVersion : UInt8
  direction : UInt8
  mac : Mac
  hasMac : UInt8

end BandixPlus.Common
