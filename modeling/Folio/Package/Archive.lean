/-!
# Archives

An archive holds files by their names, one after the other, and a directory of them at its end. The
files are stored as they are, each with a checksum: the remainder of its bits by a polynomial of
degree 32, with the least bit of every byte first.
-/

set_option autoImplicit false
set_option relaxedAutoImplicit false

namespace Folio.Package

/-- A file in an archive. -/
structure ArchiveFile where
  name : String
  content : List UInt8

/-- A number in so many bytes, the least first. -/
def littleEndian : (width : Nat) → Nat → List UInt8
  | 0, _ => []
  | width + 1, n => UInt8.ofNat n :: littleEndian width (n / 256)

/-- A remainder with one more bit divided out. -/
def checksumBit (r : UInt32) : UInt32 :=
  if r &&& 1 = 1 then (r >>> 1) ^^^ 0xedb88320 else r >>> 1

/-- The checksum of bytes. -/
def checksum (content : List UInt8) : UInt32 :=
  (content.foldl (fun r b => Nat.repeat checksumBit 8 (r ^^^ b.toUInt32)) 0xffffffff) ^^^ 0xffffffff

namespace ArchiveFile

/-- What the header of a file and its entry in the directory both say: the version that can read the
archive, that names are UTF-8 and files are stored as they are, the earliest date, the checksum, the
size twice, the length of the name and that nothing else follows it. -/
def description (f : ArchiveFile) : List UInt8 :=
  [(2, 20), (2, 0x800), (2, 0), (2, 0), (2, 0x21), (4, (checksum f.content).toNat),
    (4, f.content.length), (4, f.content.length), (2, f.name.utf8ByteSize), (2, 0)].flatMap
    fun field => littleEndian field.1 field.2

/-- A file with its header. -/
def stored (f : ArchiveFile) : List UInt8 :=
  littleEndian 4 0x04034b50 ++ f.description ++ f.name.toUTF8.toList ++ f.content

/-- The entry of a file in the directory, by the place of its header. -/
def entry (f : ArchiveFile) (place : Nat) : List UInt8 :=
  littleEndian 4 0x02014b50 ++ littleEndian 2 20 ++ f.description ++
    [(2, 0), (2, 0), (2, 0), (4, 0), (4, place)].flatMap (fun field => littleEndian field.1 field.2) ++
    f.name.toUTF8.toList

end ArchiveFile

/-- The directory of files of which the first stands at a place. -/
def directory (place : Nat) : List ArchiveFile → List UInt8
  | [] => []
  | f :: fs => f.entry place ++ directory (place + f.stored.length) fs

/-- The archive of files. -/
def archive (files : List ArchiveFile) : List UInt8 :=
  let content := files.flatMap ArchiveFile.stored
  let entries := directory 0 files
  content ++ entries ++ littleEndian 4 0x06054b50 ++
    [(2, 0), (2, 0), (2, files.length), (2, files.length), (4, entries.length), (4, content.length),
      (2, 0)].flatMap fun field => littleEndian field.1 field.2

end Folio.Package
