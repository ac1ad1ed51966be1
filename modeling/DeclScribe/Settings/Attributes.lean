/-!
Which attributes descriptions show.
-/

namespace DeclScribe

/-- The settings for attributes. Modifiers are reported in the order of `recognized`. A class from
a compiled file or an archive has the external label, an interface the interface label. -/
structure AttributeSettings where
  recognized : List String :=
    ["public", "protected", "private", "abstract", "static", "final", "synchronized", "native",
      "default"]
  externalLabel : String := "external"
  interfaceLabel : String := "interface"
  compiledExtensions : List String := [".class"]
  archiveProtocols : List String := ["jar", "zip"]
deriving DecidableEq, Repr, Inhabited

namespace AttributeSettings

def recognizing (keywords : List String) : AttributeSettings := { recognized := keywords }

def isCompiledFile (settings : AttributeSettings) (fileName : String) : Bool :=
  settings.compiledExtensions.any fun e => e.toList.isSuffixOf fileName.toList

/-- Whether this protocol is that of an archive, in ASCII letters of either case. -/
def isArchiveProtocol (settings : AttributeSettings) (protocol : String) : Bool :=
  settings.archiveProtocols.any fun p => p.toLower == protocol.toLower

end AttributeSettings

end DeclScribe
