import CorridorTrust.Publication.Manifest

namespace CorridorTrust.Manifest

open Time (Instant)

def sandboxWindow : Instant × Instant := (⟨1759276800, 0⟩, ⟨1822348800, 0⟩)

def sandboxEntry (uri : String) (tag : Tag) (slug content hash version : String) : Entry :=
  { Entry.new uri tag content with
    slug := slug
    hash := "sha256:" ++ hash
    version := version
    issued := some sandboxWindow.1
    notBefore := some sandboxWindow.1
    expires := some sandboxWindow.2 }

/-- The regulatory token is published under both spellings of its tag. -/
def sandbox : Manifest where
  version := "2025.10"
  tokens := [
    sandboxEntry "urn:lane2:token:RRMT:EU:PSD3:3.2" .rrmt "eu-psd3-2025" "rrmt-eu-psd3-2025.json"
      "60c9cb7b4d86288db2380db33cc73990b3e020b49de67c77c821f93b192b609d" "2025.10",
    sandboxEntry "urn:lane2:token:RMT:EU:PSD3:3.2" .rmt "eu-psd3-2025" "rrmt-eu-psd3-2025.json"
      "60c9cb7b4d86288db2380db33cc73990b3e020b49de67c77c821f93b192b609d" "2025.10",
    sandboxEntry "urn:lane2:token:IMT:EU:SG:2025" .imt "eu-sg-2025" "imt-eu-sg-2025.json"
      "5370d8ce844964219638555bffc4b73b2c2517440dadf667df42418e764bcf29" "2025.10",
    sandboxEntry "urn:lane2:token:CORT:VODAFONE.VISA:2025" .cort "vodafone-visa-2025"
      "cort-vodafone-visa-2025.json"
      "0649ebea135eab14331b4219b80b02f95448711d99e54101dc9187e2055de374" "2025-Q4",
    sandboxEntry "urn:lane2:token:PSRT:VISA:ACQ-123" .psrt "visa-acq-123" "psrt-visa-acq-123.json"
      "f65422602eddf94d612c3cc5033adad2afba7b436051331745cbae8df18a3c7f" "2025-01"]

end CorridorTrust.Manifest
