import Pushdown.Identity
import Pushdown.Predicate.Evaluate
import Pushdown.Traversal.Step

/-!
# Re-checking rows

The rows of a scan are tested again, with the comparison of the traversal host, against
every container the scan took in.

## Operations

* `GraphConfig.testContainer`: the test of one container on an element;
* `GraphConfig.testContainers`: the test of all of them.
-/

namespace Pushdown

namespace Predicate

/-- Whether some value of a list passes, up to the first that does. -/
def testSome (p : Predicate) : List Value → Result Bool
  | [] => .ok false
  | value :: values =>
      match p.test (some value) with
      | .error e => .error e
      | .ok true => .ok true
      | .ok false => testSome p values

end Predicate

namespace GraphConfig

/-- The test of a container on an element. -/
def testContainer (config : GraphConfig) (container : HasContainer) (element : Element) :
    Result Bool :=
  match container.key with
  | .label => container.predicate.test (some (.string element.label))
  | .id => container.predicate.onIdText.test ((config.encodeId element.id).map .string)
  | .property name => container.predicate.test (element.property? name)
  | .synthetic name =>
      if name = keyAccessor then
        container.predicate.testSome ((Entries.keys element.properties).map .string)
      else if name = valueAccessor then
        container.predicate.testSome (Entries.values element.properties)
      else .error (.unsupportedAccessor name)

/-- Whether an element passes every container, up to the first it does not. -/
def testContainers (config : GraphConfig) (element : Element) :
    List HasContainer → Result Bool
  | [] => .ok true
  | container :: containers =>
      match config.testContainer container element with
      | .error e => .error e
      | .ok false => .ok false
      | .ok true => testContainers config element containers

end GraphConfig
end Pushdown
