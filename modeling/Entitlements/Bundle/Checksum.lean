import Entitlements.Bundle.Codec
import Entitlements.Digest.Sha256
import Entitlements.Json.Printer
import Entitlements.Paging

/-!
Checksums of documents and of bundles. The digest is taken of the canonical text, which depends
neither on the order of fields nor on the spelling of white space; the leading digits that are kept
are a choice of the deployment. A bundle's checksum covers the fields that state rights, so two
bundles with equal rights have equal checksums whenever they were made.
-/

namespace Entitlements

namespace Checksum

def algorithm : String := "sha256"

/-- A label around the digits of a digest that are kept. -/
def label (length : Option Int) (digits : List Char) : String :=
  algorithm ++ ":" ++ String.ofList (upTo length digits)

def ofJson (length : Option Int) (content : Json) : String :=
  label length (Digest.sha256Hex content.canonical)

end Checksum

namespace Bundle

/-- The text that the checksum is a digest of. -/
def contentText (b : Bundle) : String := (Json.obj b.contentFields).canonical

def contentChecksum (b : Bundle) (length : Option Int) : String :=
  Checksum.ofJson length (.obj b.contentFields)

def withChecksum (b : Bundle) (length : Option Int) : Bundle :=
  { b with metadata := { b.metadata with checksum := b.contentChecksum length } }

@[simp] theorem contentFields_withChecksum (b : Bundle) (length : Option Int) :
    (b.withChecksum length).contentFields = b.contentFields := rfl

end Bundle

end Entitlements
