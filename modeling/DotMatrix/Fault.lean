import DotMatrix.Processor.Notation

/-! # What can go wrong, and how it is told -/
namespace DotMatrix

inductive FileFault where
  | notFound
  | alreadyExists
  | notDirectory
  | isDirectory
  | nameTooLong
  | nulInPath
  /-- The contents are not what their checksum tells of. -/
  | corrupt
  | other (text : String)
  deriving DecidableEq, Repr

inductive ArchiveFault where
  | unreadable (cause : FileFault)
  | noDirectory
  | noHeader
  | encrypted
  | packed
  deriving DecidableEq, Repr

inductive Fault where
  | undecodable (opcode : UInt8) (address : UInt16)
  | unexecutable (listing : Listing)
  | bootImageSize (expected actual : Nat)
  | unsupportedCartridge (type : UInt8)
  | imageTooSmall (size : Nat)
  | hookTaken (address : UInt16)
  | unhookable (address : UInt16)
  | noImageInArchive (path : String)
  | file (path : String) (cause : FileFault)
  | archive (path : String) (cause : ArchiveFault)
  deriving DecidableEq, Repr

namespace FileFault

def message : FileFault → String
  | .notFound => "No such file or directory (os error 2)"
  | .alreadyExists => "File exists (os error 17)"
  | .notDirectory => "Not a directory (os error 20)"
  | .isDirectory => "Is a directory (os error 21)"
  | .nameTooLong => "File name too long (os error 36)"
  | .nulInPath => "file name contained an unexpected NUL byte"
  | .corrupt => "Invalid checksum"
  | .other text => text

end FileFault

namespace ArchiveFault

def message : ArchiveFault → String
  | .unreadable cause => s!"i/o error: {cause.message}"
  | .noDirectory => "invalid Zip archive: Could not find EOCD"
  | .noHeader => "invalid Zip archive: Invalid local file header"
  | .encrypted => "unsupported Zip archive: Password required to decrypt file"
  | .packed => "unsupported Zip archive: Compression method not supported"

end ArchiveFault

namespace Fault

def message : Fault → String
  | .undecodable opcode address =>
    s!"Failed to decode instruction ({Hex.byte opcode}) at address: ${Hex.word address}"
  | .unexecutable listing => s!"Invalid instruction handler implementation: {listing.text}"
  | .bootImageSize expected actual => s!"Boot image must be {expected} bytes, got {actual}"
  | .unsupportedCartridge type => s!"Unsupported cartridge type: ${Hex.byte type}"
  | .imageTooSmall size => s!"Cartridge image too small: {size} bytes"
  | .hookTaken address => s!"A write observer is already registered for ${Hex.word address}"
  | .unhookable address =>
    s!"Write observers are only supported in the I/O page, got ${Hex.word address}"
  | .noImageInArchive path => s!"No ROM image found in archive {path}"
  | .file path cause => s!"I/O error on {path}: {cause.message}"
  | .archive path cause => s!"Failed to read archive {path}: {cause.message}"

end Fault
end DotMatrix
