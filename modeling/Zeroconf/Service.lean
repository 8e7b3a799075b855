import Zeroconf.Error
import Zeroconf.Name
import Zeroconf.Text.Utf8

/-!
This module contains the names of services. Such a name has the form
`[<instance>.][<subtype>._sub.]<application>.<protocol>.<domain>`, where the labels from the
subtype or the application to the protocol start with underscores. A name has either two or four
labels of that kind; the first and the last of them divide it into instance, type and domain.
-/

namespace Zeroconf

/--
The name of a service, cut at the first and behind the last label that starts with an underscore.
-/
structure Service where
  instanceLabels : List Label
  typeLabels : List Label
  domainLabels : List Label
  deriving DecidableEq, Repr

namespace Service

def labels (service : Service) : List Label :=
  service.instanceLabels ++ service.typeLabels ++ service.domainLabels

def markers (service : Service) : List Label := service.typeLabels.filter Label.isMarker

def cut (labels : List Label) : Service :=
  let named := labels.takeWhile fun l => !l.isMarker
  let typed := labels.dropWhile fun l => !l.isMarker
  let domain := (typed.reverse.takeWhile fun l => !l.isMarker).reverse
  ⟨named, typed.take (typed.length - domain.length), domain⟩

inductive Fault where
  | tooManyMarkers
  | wrongMarkers
  deriving DecidableEq, Repr

def Fault.message : Fault → String
  | .tooManyMarkers => "more than 4 underscore labels"
  | .wrongMarkers => "expected 2 or 4 underscore-prefixed labels"

def ofLabels (labels : List Label) : Except Fault Service :=
  let count := labels.countP Label.isMarker
  if count > 4 then .error .tooManyMarkers
  else if count == 2 || count == 4 then .ok (cut labels)
  else .error .wrongMarkers

def faultError (labels : List Label) (fault : Fault) : Error :=
  .parse s!"invalid service name '{Ascii.text (Name.dotted labels)}': {fault.message}"

def parse (text : String) : Except Error Service := do
  let labels ← (Label.parseAll (Ascii.bytes text)).mapError fun fault =>
    .parse (fault.message text)
  (ofLabels labels).mapError (faultError labels)

def ofName (name : Name) : Except Error Service :=
  (ofLabels name.labels).mapError (faultError name.labels)

/--
The bytes of the instance name, which may have been split into several labels.
-/
def instanceBytes (service : Service) : Option (List UInt8) :=
  if service.instanceLabels.isEmpty then none else some service.instanceLabels.flatten

def instanceText (service : Service) : Option String :=
  service.instanceBytes.map fun bytes => String.ofList (Text.Utf8.decodeTolerant bytes)

/--
The `i`-th marker from the right.
-/
def marker (service : Service) (i : Nat) : Label := service.markers.reverse.getD i []

def protocol (service : Service) : String := Ascii.text (service.marker 0).escape

def application (service : Service) : String := Ascii.text (service.marker 1).escape

/--
Application and protocol.
-/
def serviceType (service : Service) : String := service.application ++ "." ++ service.protocol

def fullType (service : Service) : String := Ascii.text (Name.joined service.typeLabels)

/--
The labels of the subtype, up to the second marker.
-/
def subTypeLabels (service : Service) : Option (List Label) :=
  match service.typeLabels with
  | first :: rest =>
    if service.markers.length == 4 then
      let between := rest.takeWhile fun l => !l.isMarker
      some (first :: rest.take (between.length + 1))
    else
      none
  | [] => none

def subType (service : Service) : Option String :=
  (service.subTypeLabels.bind List.head?).map fun label => Ascii.text label.escape

def fullSubType (service : Service) : Option String :=
  service.subTypeLabels.map fun labels => Ascii.text (Name.joined labels)

/--
The domain with a dot at its end; the root is a lone dot.
-/
def domain (service : Service) : String := Ascii.text (Name.joined service.domainLabels) ++ "."

/--
The type in its domain, as a text that can be browsed.
-/
def typeName (service : Service) : String := service.fullType ++ "." ++ service.domain

def text (service : Service) : String := Ascii.text (Name.dotted service.labels)

def toName (service : Service) : Except Error Name :=
  (Name.ofLabels service.labels).mapError fun fault => .parse fault.message

end Service

end Zeroconf
