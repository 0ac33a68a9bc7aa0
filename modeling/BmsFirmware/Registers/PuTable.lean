/- Module: BmsFirmware/Registers/PuTable
   Source: application/registers/pu_table.c
   Digest: The register table: its rows, the columns nothing assigns, and the accessors. -/

import BmsFirmware.Library.ByteMemory

set_option autoImplicit false
set_option relaxedAutoImplicit false

namespace BmsFirmware.Registers.PuTable

open BmsFirmware.Library.ByteMemory

structure PUData where
  address : Word
  offset : Word
  status : Word
  type : Char
  length : Word
  data : Word
  command : Word
  deriving DecidableEq

/-- The initial value of the array `registers`. -/
def registers : List PUData :=
  [⟨0x0000, 0x0000, 0, 'W', 4, 0x0, 0x0⟩, ⟨0x1000, 0x0000, 0, 'W', 4, 0x0, 0x0⟩,
    ⟨0x1000, 0x0004, 0, 'W', 4, 0x0, 0x0⟩, ⟨0x1000, 0x0008, 0, 'W', 4, 0x0, 0x0⟩,
    ⟨0x1000, 0x000C, 0, 'W', 4, 0x0, 0x0⟩, ⟨0x1000, 0x0010, 0, 'W', 4, 0x0, 0x0⟩,
    ⟨0x1000, 0x0014, 0, 'W', 4, 0x0, 0x0⟩, ⟨0x1000, 0x0018, 0, 'W', 4, 0x0, 0x0⟩,
    ⟨0x1000, 0x001C, 0, 'W', 4, 0x0, 0x0⟩, ⟨0x1000, 0x0020, 0, 'W', 4, 0x0, 0x0⟩,
    ⟨0x1000, 0x0024, 0, 'W', 4, 0x0, 0x0⟩, ⟨0x1000, 0x0028, 0, 'W', 4, 0x0, 0x0⟩,
    ⟨0x1000, 0x002C, 0, 'W', 4, 0x0, 0x0⟩, ⟨0x1000, 0x0030, 0, 'W', 4, 0x0, 0x0⟩,
    ⟨0x1000, 0x0034, 0, 'W', 4, 0x0, 0x0⟩, ⟨0x1000, 0x0038, 0, 'W', 4, 0x0, 0x0⟩,
    ⟨0x1000, 0x003C, 0, 'W', 4, 0x0, 0x0⟩, ⟨0x1000, 0x0040, 0, 'W', 4, 0x0, 0x0⟩,
    ⟨0x1000, 0x0044, 0, 'W', 4, 0x0, 0x0⟩, ⟨0x1000, 0x0048, 0, 'W', 4, 0x0, 0x0⟩,
    ⟨0x1000, 0x004C, 0, 'W', 4, 0x0, 0x0⟩, ⟨0x1000, 0x0050, 0, 'W', 4, 0x0, 0x0⟩,
    ⟨0x1000, 0x0054, 0, 'W', 4, 0x0, 0x0⟩, ⟨0x1000, 0x0058, 0, 'W', 4, 0x0, 0x0⟩,
    ⟨0x1000, 0x005C, 0, 'W', 4, 0x0, 0x0⟩, ⟨0x1000, 0x0060, 0, 'W', 4, 0x0, 0x0⟩,
    ⟨0x1000, 0x0064, 0, 'W', 4, 0x0, 0x0⟩, ⟨0x1000, 0x0068, 0, 'W', 4, 0x0, 0x0⟩,
    ⟨0x1000, 0x006C, 0, 'W', 4, 0x0, 0x0⟩, ⟨0x1000, 0x0070, 0, 'W', 4, 0x0, 0x0⟩,
    ⟨0x1000, 0x0074, 0, 'W', 4, 0x0, 0x0⟩, ⟨0x1000, 0x0078, 0, 'W', 4, 0x0, 0x0⟩,
    ⟨0x1000, 0x007C, 0, 'W', 4, 0x0, 0x0⟩, ⟨0x1000, 0x0080, 0, 'W', 4, 0x0, 0x0⟩,
    ⟨0x1000, 0x0084, 0, 'W', 4, 0x0, 0x0⟩, ⟨0x1000, 0x0088, 0, 'W', 4, 0x0, 0x0⟩,
    ⟨0x1000, 0x008C, 0, 'W', 4, 0x0, 0x0⟩, ⟨0x1000, 0x0090, 0, 'W', 4, 0x0, 0x0⟩,
    ⟨0x1000, 0x0094, 0, 'W', 4, 0x0, 0x0⟩, ⟨0x1000, 0x0098, 0, 'W', 4, 0x0, 0x0⟩,
    ⟨0x1000, 0x009C, 0, 'W', 4, 0x0, 0x0⟩, ⟨0x1000, 0x00A0, 0, 'W', 4, 0x0, 0x0⟩,
    ⟨0x1000, 0x00A4, 0, 'W', 4, 0x0, 0x0⟩, ⟨0x1000, 0x00A8, 0, 'W', 4, 0x0, 0x0⟩,
    ⟨0x1000, 0x00AC, 0, 'W', 4, 0x0, 0x0⟩, ⟨0x1000, 0x00B0, 0, 'W', 4, 0x0, 0x0⟩,
    ⟨0x1000, 0x00B4, 0, 'W', 4, 0x0, 0x0⟩, ⟨0x1000, 0x00B8, 0, 'W', 4, 0x0, 0x0⟩,
    ⟨0x1000, 0x00BC, 0, 'W', 4, 0x0, 0x0⟩, ⟨0x1000, 0x00C0, 0, 'W', 4, 0x0, 0x0⟩,
    ⟨0x1000, 0x00C4, 0, 'W', 4, 0x0, 0x0⟩, ⟨0x1000, 0x00C8, 0, 'W', 4, 0x0, 0x0⟩,
    ⟨0x1000, 0x00CC, 0, 'W', 4, 0x0, 0x0⟩, ⟨0x1000, 0x00D0, 0, 'W', 4, 0x0, 0x0⟩,
    ⟨0x1000, 0x00D4, 0, 'W', 4, 0x0, 0x0⟩, ⟨0x1000, 0x00D8, 0, 'W', 4, 0x0, 0x0⟩,
    ⟨0x1000, 0x00DC, 0, 'W', 4, 0x0, 0x0⟩, ⟨0x1000, 0x00E0, 0, 'W', 4, 0x0, 0x0⟩,
    ⟨0x1000, 0x00E4, 0, 'W', 4, 0x0, 0x0⟩, ⟨0x1000, 0x00E8, 0, 'W', 4, 0x0, 0x0⟩,
    ⟨0x1000, 0x00EC, 0, 'W', 4, 0x0, 0x0⟩, ⟨0x1000, 0x00F0, 0, 'W', 4, 0x0, 0x0⟩,
    ⟨0x1000, 0x00F4, 0, 'W', 4, 0x0, 0x0⟩, ⟨0x1000, 0x00F8, 0, 'W', 4, 0x0, 0x0⟩,
    ⟨0x1000, 0x00FC, 0, 'W', 4, 0x0, 0x0⟩, ⟨0x1000, 0x0100, 0, 'W', 4, 0x0, 0x0⟩,
    ⟨0x1000, 0x0104, 0, 'W', 4, 0x0, 0x0⟩, ⟨0x1000, 0x0108, 0, 'W', 4, 0x0, 0x0⟩,
    ⟨0x1000, 0x010C, 0, 'W', 4, 0x0, 0x0⟩, ⟨0x1000, 0x010E, 0, 'W', 4, 0x0, 0x0⟩,
    ⟨0x1000, 0x0110, 0, 'W', 4, 0x0, 0x0⟩, ⟨0x1200, 0x0000, 0, 'R', 4, 0x0, 0x0⟩,
    ⟨0x1200, 0x0002, 0, 'R', 4, 0x0, 0x14⟩, ⟨0x1200, 0x0004, 0, 'R', 4, 0x0, 0x16⟩,
    ⟨0x1200, 0x0006, 0, 'R', 4, 0x0, 0x18⟩, ⟨0x1200, 0x0008, 0, 'R', 4, 0x0, 0x1A⟩,
    ⟨0x1200, 0x000A, 0, 'R', 4, 0x0, 0x1C⟩, ⟨0x1200, 0x000C, 0, 'R', 4, 0x0, 0x1E⟩,
    ⟨0x1200, 0x000E, 0, 'R', 4, 0x0, 0x20⟩, ⟨0x1200, 0x0010, 0, 'R', 4, 0x0, 0x22⟩,
    ⟨0x1200, 0x0012, 0, 'R', 4, 0x0, 0x24⟩, ⟨0x1200, 0x0014, 0, 'R', 4, 0x0, 0x26⟩,
    ⟨0x1200, 0x0016, 0, 'R', 4, 0x0, 0x28⟩, ⟨0x1200, 0x0018, 0, 'R', 4, 0x0, 0x2A⟩,
    ⟨0x1200, 0x001A, 0, 'R', 4, 0x0, 0x2C⟩, ⟨0x1200, 0x001C, 0, 'R', 4, 0x0, 0x2E⟩,
    ⟨0x1200, 0x001E, 0, 'R', 4, 0x0, 0x30⟩, ⟨0x1200, 0x0020, 0, 'R', 4, 0x0, 0x32⟩,
    ⟨0x1200, 0x0022, 0, 'R', 4, 0x0, 0x34⟩, ⟨0x1200, 0x0024, 0, 'R', 4, 0x0, 0x36⟩,
    ⟨0x1200, 0x0026, 0, 'R', 4, 0x0, 0x38⟩, ⟨0x1200, 0x0028, 0, 'R', 4, 0x0, 0x3A⟩,
    ⟨0x1200, 0x002A, 0, 'R', 4, 0x0, 0x62⟩, ⟨0x1200, 0x002C, 0, 'R', 4, 0x0, 0x64⟩,
    ⟨0x1200, 0x002E, 0, 'W', 4, 0x0, 0x66⟩, ⟨0x1200, 0x0030, 0, 'R', 4, 0x0, 0x68⟩,
    ⟨0x1200, 0x0032, 0, 'R', 4, 0x0, 0x6A⟩, ⟨0x1200, 0x0034, 0, 'R', 4, 0x0, 0x6C⟩,
    ⟨0x1200, 0x0036, 0, 'R', 4, 0x0, 0x6E⟩, ⟨0x1200, 0x0038, 0, 'R', 4, 0x0, 0x70⟩,
    ⟨0x1200, 0x003A, 0, 'R', 4, 0x0, 0x72⟩, ⟨0x1200, 0x003C, 0, 'R', 4, 0x0, 0x74⟩,
    ⟨0x1200, 0x003E, 0, 'R', 4, 0x0, 0x76⟩, ⟨0x1200, 0x0040, 0, 'R', 4, 0x0, 0x78⟩,
    ⟨0x1200, 0x0042, 0, 'R', 4, 0x0, 0x7A⟩, ⟨0x1200, 0x0044, 0, 'R', 4, 0x0, 0x7F⟩,
    ⟨0x1200, 0x0046, 0, 'R', 4, 0x0, 0x02⟩, ⟨0x1200, 0x0048, 0, 'R', 4, 0x0, 0x03⟩,
    ⟨0x1200, 0x004A, 0, 'R', 4, 0x0, 0x04⟩, ⟨0x1200, 0x004C, 0, 'R', 4, 0x0, 0x05⟩,
    ⟨0x1200, 0x004E, 0, 'R', 4, 0x0, 0x06⟩, ⟨0x1200, 0x0050, 0, 'R', 4, 0x0, 0x07⟩,
    ⟨0x1200, 0x0052, 0, 'R', 4, 0x0, 0x0A⟩, ⟨0x1200, 0x0054, 0, 'R', 4, 0x0, 0x0B⟩,
    ⟨0x1200, 0x0056, 0, 'R', 4, 0x0, 0x0C⟩, ⟨0x1200, 0x0058, 0, 'R', 4, 0x0, 0x0D⟩,
    ⟨0x1200, 0x005A, 0, 'R', 4, 0x0, 0x0E⟩, ⟨0x1200, 0x005C, 0, 'R', 4, 0x0, 0x0F⟩,
    ⟨0x1200, 0x005E, 0, 'R', 4, 0x0, 0x10⟩, ⟨0x1200, 0x0060, 0, 'R', 4, 0x0, 0x11⟩,
    ⟨0x1200, 0x0062, 0, 'R', 4, 0x0, 0x12⟩, ⟨0x1200, 0x0064, 0, 'R', 4, 0x0, 0x0⟩,
    ⟨0x1200, 0x0066, 0, 'R', 4, 0x0, 0x0⟩, ⟨0x1200, 0x0068, 0, 'R', 4, 0x0, 0x0⟩,
    ⟨0x1200, 0x006A, 0, 'R', 4, 0x0, 0x0⟩, ⟨0x1200, 0x006C, 0, 'R', 4, 0x0, 0x0⟩,
    ⟨0x1200, 0x006E, 0, 'R', 4, 0x0, 0x0⟩, ⟨0x1200, 0x0070, 0, 'R', 4, 0x0, 0x0⟩,
    ⟨0x1200, 0x0072, 0, 'R', 4, 0x0, 0x0⟩, ⟨0x1200, 0x0074, 0, 'R', 4, 0x0, 0x0⟩,
    ⟨0x1200, 0x0076, 0, 'R', 4, 0x0, 0x0⟩, ⟨0x1200, 0x0078, 0, 'R', 4, 0x0, 0x0⟩,
    ⟨0x1200, 0x007A, 0, 'R', 4, 0x0, 0x0⟩, ⟨0x1200, 0x007C, 0, 'R', 4, 0x0, 0x0⟩,
    ⟨0x1200, 0x007E, 0, 'R', 4, 0x0, 0x0⟩, ⟨0x1200, 0x0080, 0, 'R', 4, 0x0, 0x0⟩,
    ⟨0x1200, 0x0082, 0, 'R', 4, 0x0, 0x0⟩, ⟨0x1200, 0x0084, 0, 'R', 4, 0x0, 0x0⟩,
    ⟨0x1200, 0x0086, 0, 'R', 4, 0x0, 0x0⟩, ⟨0x1200, 0x0088, 0, 'R', 4, 0x0, 0x0⟩,
    ⟨0x1200, 0x008A, 0, 'R', 4, 0x0, 0x0⟩, ⟨0x1200, 0x008C, 0, 'R', 4, 0x0, 0x0⟩,
    ⟨0x1200, 0x0090, 0, 'R', 4, 0x0, 0x0⟩, ⟨0x1200, 0x0094, 0, 'R', 4, 0x0, 0x0⟩,
    ⟨0x1200, 0x0098, 0, 'R', 4, 0x0, 0x0⟩, ⟨0x1200, 0x009C, 0, 'R', 4, 0x0, 0x0⟩,
    ⟨0x1200, 0x009E, 0, 'R', 4, 0x0, 0x0⟩, ⟨0x1200, 0x00A0, 0, 'R', 4, 0x0, 0x0⟩,
    ⟨0x1200, 0x00A4, 0, 'R', 4, 0x0, 0x0⟩, ⟨0x1200, 0x00A6, 0, 'R', 4, 0x0, 0x0⟩,
    ⟨0x1200, 0x00A8, 0, 'R', 4, 0x0, 0x0⟩, ⟨0x1200, 0x00AC, 0, 'R', 4, 0x0, 0x0⟩,
    ⟨0x1200, 0x00B0, 0, 'R', 4, 0x0, 0x0⟩, ⟨0x1200, 0x00B4, 0, 'R', 4, 0x0, 0x0⟩,
    ⟨0x1200, 0x00B8, 0, 'R', 4, 0x0, 0x0⟩, ⟨0x1200, 0x00BA, 0, 'R', 4, 0x0, 0x0⟩,
    ⟨0x1200, 0x00BC, 0, 'R', 4, 0x0, 0x0⟩, ⟨0x1200, 0x00C0, 0, 'R', 4, 0x0, 0x0⟩,
    ⟨0x1200, 0x00C2, 0, 'R', 4, 0x0, 0x0⟩, ⟨0x1200, 0x00C4, 0, 'R', 4, 0x0, 0x0⟩,
    ⟨0x1200, 0x00C6, 0, 'R', 4, 0x0, 0x0⟩, ⟨0x1200, 0x00C8, 0, 'R', 4, 0x0, 0x0⟩,
    ⟨0x1200, 0x00CA, 0, 'R', 4, 0x0, 0x0⟩, ⟨0x1200, 0x00CC, 0, 'R', 4, 0x0, 0x0⟩,
    ⟨0x1200, 0x00CE, 0, 'R', 4, 0x0, 0x0⟩, ⟨0x1200, 0x00D0, 0, 'R', 4, 0x0, 0x0⟩,
    ⟨0x1200, 0x00D2, 0, 'R', 4, 0x0, 0x0⟩, ⟨0x1200, 0x00D4, 0, 'R', 4, 0x0, 0x0⟩,
    ⟨0x1200, 0x00D6, 0, 'R', 4, 0x0, 0x0⟩, ⟨0x1200, 0x00D8, 0, 'R', 4, 0x0, 0x0⟩,
    ⟨0x1200, 0x00DA, 0, 'R', 4, 0x0, 0x0⟩, ⟨0x1200, 0x00DC, 0, 'R', 4, 0x0, 0x0⟩,
    ⟨0x1200, 0x00E0, 0, 'R', 4, 0x0, 0x0⟩, ⟨0x1200, 0x00E2, 0, 'R', 4, 0x0, 0x0⟩,
    ⟨0x1200, 0x00E4, 0, 'R', 4, 0x0, 0x0⟩, ⟨0x1200, 0x00E6, 0, 'R', 4, 0x0, 0x0⟩,
    ⟨0x1200, 0x00E8, 0, 'R', 4, 0x0, 0x0⟩, ⟨0x1200, 0x00EA, 0, 'R', 4, 0x0, 0x0⟩,
    ⟨0x1200, 0x00EE, 0, 'R', 4, 0x0, 0x0⟩, ⟨0x1200, 0x00F2, 0, 'R', 4, 0x0, 0x0⟩,
    ⟨0x1200, 0x00F4, 0, 'R', 4, 0x0, 0x0⟩, ⟨0x1200, 0x00F6, 0, 'R', 4, 0x0, 0x0⟩,
    ⟨0x1200, 0x00F8, 0, 'R', 4, 0x0, 0x0⟩, ⟨0x1200, 0x00FC, 0, 'R', 4, 0x0, 0x0⟩,
    ⟨0x1200, 0x0100, 0, 'R', 4, 0x0, 0x0⟩, ⟨0x1400, 0x0000, 0, 'R', 4, 0x0, 0x0⟩,
    ⟨0x1400, 0x0004, 0, 'R', 4, 0x0, 0x0⟩, ⟨0x1400, 0x0008, 0, 'R', 4, 0x0, 0x0⟩,
    ⟨0x1400, 0x000C, 0, 'R', 4, 0x0, 0x0⟩, ⟨0x1400, 0x0010, 0, 'R', 4, 0x0, 0x0⟩,
    ⟨0x1400, 0x0014, 0, 'R', 4, 0x0, 0x0⟩, ⟨0x1400, 0x0018, 0, 'R', 4, 0x0, 0x0⟩,
    ⟨0x1400, 0x001C, 0, 'R', 4, 0x0, 0x0⟩, ⟨0x1400, 0x0020, 0, 'R', 4, 0x0, 0x0⟩,
    ⟨0x1400, 0x0024, 0, 'R', 4, 0x0, 0x0⟩, ⟨0x1600, 0x0000, 0, 'W', 4, 0x0, 0x0⟩,
    ⟨0x1600, 0x0002, 0, 'W', 4, 0x0, 0x0⟩, ⟨0x1600, 0x0004, 0, 'W', 4, 0x0, 0x0⟩,
    ⟨0x1600, 0x0006, 0, 'W', 4, 0x0, 0x0⟩, ⟨0x1600, 0x0008, 0, 'W', 4, 0x0, 0x0⟩,
    ⟨0x1600, 0x000A, 0, 'W', 4, 0x0, 0x0⟩, ⟨0x1600, 0x000C, 0, 'W', 4, 0x0, 0x0⟩,
    ⟨0x1600, 0x000E, 0, 'W', 4, 0x0, 0x0⟩, ⟨0x8000, 0x0000, 0, 'W', 4, 0x0, 0x0⟩,
    ⟨0x8000, 0x0004, 0, 'W', 4, 0x0, 0x0⟩, ⟨0x8000, 0x0008, 0, 'W', 4, 0x10, 0x0⟩]

/-- The columns that only the initializer sets. -/
structure FixedColumns where
  address : Word
  offset : Word
  type : Char
  length : Word
  command : Word
  deriving DecidableEq

def PUData.fixed (r : PUData) : FixedColumns :=
  ⟨r.address, r.offset, r.type, r.length, r.command⟩

/-- Row `i` of the initializer. -/
def initialRow (i : Nat) : PUData := registers.getD i ⟨0, 0, 0, 'R', 0, 0, 0⟩

/-- The array at run time; its fixed columns are those of the initializer. -/
@[ext]
structure Table where
  row : Nat → PUData
  columns : ∀ i, (row i).fixed = (initialRow i).fixed

def Table.initial : Table := ⟨initialRow, fun _ => rfl⟩

section Accessors

variable (t : Table) (index : Nat)

def puGetAddress : Word := (t.row index).address
def puGetOffset : Word := (t.row index).offset
def puGetStatus : Word := (t.row index).status
def puGetType : Char := (t.row index).type
def puGetLength : Word := (t.row index).length
def puGetData : Word := (t.row index).data
def puGetCommand : Byte := (t.row index).command.setWidth 8

def puSetStatus (status : Word) : Table where
  row := Function.update t.row index { t.row index with status := status }
  columns i := by
    rw [Function.update_apply]
    split_ifs with same
    · subst same
      exact t.columns i
    · exact t.columns i

def puSetData (data : Word) : Table where
  row := Function.update t.row index { t.row index with data := data }
  columns i := by
    rw [Function.update_apply]
    split_ifs with same
    · subst same
      exact t.columns i
    · exact t.columns i

end Accessors

section Laws

variable (t : Table) (i j : Nat) (v : Word)

@[simp] theorem puSetStatus_self : (puSetStatus t i v).row i = { t.row i with status := v } :=
  Function.update_self _ _ _

@[simp] theorem puSetData_self : (puSetData t i v).row i = { t.row i with data := v } :=
  Function.update_self _ _ _

variable {i j}

@[simp] theorem puSetStatus_other (away : j ≠ i) : (puSetStatus t i v).row j = t.row j :=
  Function.update_of_ne away _ _

@[simp] theorem puSetData_other (away : j ≠ i) : (puSetData t i v).row j = t.row j :=
  Function.update_of_ne away _ _

theorem puSetStatus_data (t : Table) (i j : Nat) (v : Word) :
    puGetData (puSetStatus t i v) j = puGetData t j := by
  by_cases here : j = i
  · subst here
    simp [puGetData]
  · simp [puGetData, here]

/-- The type of a register is the initializer's, whatever has happened since. -/
theorem puGetType_initial (t : Table) (i : Nat) : puGetType t i = (initialRow i).type :=
  congrArg FixedColumns.type (t.columns i)

end Laws

end BmsFirmware.Registers.PuTable
