/-!
# Results of mapped and chained computations

Mapping the value of a computation neither hides a failure nor makes one up, and
a chain of two computations has a value only if both of them have one.
-/

namespace Cookbook

variable
    {Problem Cause Source Target : Type}
    {f : Source → Target}
    {source : Except Problem Source}

theorem exists_of_map_eq_ok
    {target : Target}
    (mapped : f <$> source = .ok target) :
    ∃ value, source = .ok value ∧ f value = target := by
  cases source with
  | error problem => cases mapped
  | ok value => exact ⟨value, rfl, Except.ok.inj mapped⟩

theorem eq_error_of_map_eq_error
    {problem : Problem}
    (mapped : f <$> source = .error problem) :
    source = .error problem := by
  cases source with
  | error cause =>
    cases mapped
    rfl
  | ok value => cases mapped

theorem eq_ok_of_mapError_eq_ok
    {explain : Problem → Cause}
    {value : Source}
    (mapped : source.mapError explain = .ok value) :
    source = .ok value := by
  cases source with
  | error problem => cases mapped
  | ok found =>
    cases mapped
    rfl

theorem exists_of_bind_eq_ok
    {next : Source → Except Problem Target}
    {target : Target}
    (chained : source.bind next = .ok target) :
    ∃ value, source = .ok value ∧ next value = .ok target := by
  cases source with
  | error problem => cases chained
  | ok value => exact ⟨value, rfl, chained⟩

end Cookbook
